import Enrollment.Proofs.Calls
import Mathlib.Data.List.Infix

/-!
# Entries outlive failures

The register is brought up to date before anything is written, so neither a
sink nor the settings nor a listing has a say in what a register holds, and
what has been entered stays, reported or not.
-/

namespace Enrollment.Registrar

/-- Turns an entry away: the register stays, and the duplicate is reported. -/
def turnAway (r : Registrar) (s : Student) : Except SinkFault Answer × Registrar :=
  let noted : Registrar := { r with log := r.log ++ [.rejected s.id] }
  let told := noted.publish ["Student with ID ", s.id, " already exists\n"]
  (told.1.map fun _ => .entry .duplicate, told.2)

/-- An entry under an id that is taken is turned away, wherever the sink stands. -/
theorem perform_enter_of_contains {r : Registrar} {s : Student}
    (h : r.register.contains s.id = true) : r.perform (.enter s) = r.turnAway s := by
  have henter := Register.enter_of_contains h
  have hnoted : r.noted (.enter s) = { r with log := r.log ++ [.rejected s.id] } := by
    have hafter : (Call.enter s).registerAfter r.register = r.register := congrArg Prod.snd henter
    rw [noted, hafter, Call.events, henter]
    rfl
  rw [perform_eq, hnoted]
  simp only [Call.pieces, Call.answer, henter, notice, turnAway]

theorem get?_after_of_eq_some {r : Registrar} {id : String} {s : Student}
    (h : r.register.get? id = some s) (calls : List Call) :
    (r.after calls).register.get? id = some s := by
  rw [after_register]
  exact Register.get?_enterAll_of_eq_some h _

/-- Two runs with the same entries have the same register at every two points with as many entries
behind them, whatever the settings and the sinks, and so has a register by itself.  A student once
entered stays as entered.  A student entered under a new id is there even if the entry could not be
reported, so that the same entry made later is turned away as a duplicate. -/
theorem register_independent (settings₁ settings₂ : Settings) (sink₁ sink₂ : Sink) :
    (∀ calls₁ calls₂ : List Call, Call.entered calls₁ = Call.entered calls₂ →
      ∀ made₁ made₂, made₁ <+: calls₁ → made₂ <+: calls₂ →
        (Call.entered made₁).length = (Call.entered made₂).length →
          ((fresh settings₁ sink₁).after made₁).register =
            ((fresh settings₂ sink₂).after made₂).register ∧
          ((fresh settings₁ sink₁).after made₁).register =
            Register.empty.enterAll ((Call.entered calls₁).take (Call.entered made₁).length)) ∧
    (∀ (before later : List Call) (id : String) (s : Student),
      ((fresh settings₁ sink₁).after before).register.get? id = some s →
        ((fresh settings₁ sink₁).after (before ++ later)).register.get? id = some s) ∧
    ∀ (before later : List Call) (s : Student) (fault : SinkFault),
      let r := (fresh settings₁ sink₁).after before
      let again := (r.perform (.enter s)).2.after later
      r.register.contains s.id = false → (r.perform (.enter s)).1 = .error fault →
        (r.perform (.enter s)).2.register.get? s.id = some s ∧
        again.perform (.enter s) = again.turnAway s := by
  refine ⟨?_, ?_, ?_⟩
  · intro calls₁ calls₂ hsame made₁ made₂ h₁ h₂ hlen
    have hp₁ : Call.entered made₁ <+: Call.entered calls₁ := h₁.filterMap _
    have hp₂ : Call.entered made₂ <+: Call.entered calls₁ := hsame ▸ h₂.filterMap _
    have hentered : Call.entered made₁ = Call.entered made₂ :=
      (List.prefix_of_prefix_length_le hp₁ hp₂ hlen.le).eq_of_length hlen
    rw [after_register, after_register, ← hentered, ← List.prefix_iff_eq_take.1 hp₁]
    exact ⟨rfl, rfl⟩
  · intro before later id s h
    rw [after_append]
    exact get?_after_of_eq_some h later
  · intro before later s fault r again hnew _
    have hstored : (r.perform (.enter s)).2.register.get? s.id = some s := by
      have hnone : r.register.get? s.id = none := by
        rwa [Register.contains_eq_isSome, Option.isSome_eq_false_iff, Option.isNone_iff_eq_none]
          at hnew
      have hafter : (Call.enter s).registerAfter r.register = (r.register.enter s).2 := rfl
      rw [perform_register, hafter, Register.get?_enter, hnone, if_pos rfl, Option.none_or]
    refine ⟨hstored, perform_enter_of_contains ?_⟩
    rw [Register.contains_eq_isSome, get?_after_of_eq_some hstored later, Option.isSome_some]

/-- On a full sink the entry fails to be reported, and yet it stands. -/
theorem register_independent_full_sink :
    let full : Sink := { device := { limit := some 0 } }
    let ann : Student := ⟨"1", "Ann", 30⟩
    let bob : Student := ⟨"1", "Bob", -1⟩
    let quiet : Settings := ⟨"", false⟩
    ((fresh .standard full).after [.enter ann, .list .entry]).register =
        ((fresh quiet {}).after [.size, .enter ann]).register ∧
      ((fresh .standard full).after [.enter ann, .list .entry, .enter bob]).register.get? "1" =
        some ann ∧
      ((fresh .standard full).perform (.enter ann)).1 = .error (.write "closed") ∧
      let again := ((fresh .standard full).perform (.enter ann)).2.after [.list .entry]
      again.perform (.enter ann) = again.turnAway ann := by
  intro full ann bob quiet
  have hfault : ((fresh .standard full).perform (.enter ann)).1 = .error (.write "closed") := by
    have htold := perform_published (r := fresh .standard full) (c := .enter ann) rfl rfl
    exact htold.result.trans (if_neg (by decide))
  obtain ⟨hsame, hkept, hagain⟩ := register_independent .standard quiet full {}
  refine ⟨?_, ?_, hfault, ?_⟩
  · exact (hsame [.enter ann, .list .entry, .enter bob] [.size, .enter ann, .enter bob] rfl
      [.enter ann, .list .entry] [.size, .enter ann] ⟨_, rfl⟩ ⟨_, rfl⟩ rfl).1
  · exact hkept [.enter ann] [.list .entry, .enter bob] "1" ann (by rw [after_register]; decide)
  · exact (hagain [] [.list .entry] ann (.write "closed") (by decide) hfault).2

end Enrollment.Registrar
