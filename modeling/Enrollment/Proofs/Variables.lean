import Enrollment.Proofs.Utf8
import Enrollment.Settings.Environment

/-!
# What variables add to a layer

A variable does one of three things (`variable_cases`): it does not count, it
gives a key a text, or it is garbled, which ends the reading of the environment.
The layer of an environment without garbled variables holds for each key the
text that the last variable for it gives (`get?_layer`); otherwise the first
garbled variable decides (`layer_eq_error`).
-/

namespace Enrollment

/-- Bytes are those of a text. -/
def Utf8.IsWellFormed (bs : Bytes) : Prop :=
  ∃ cs, encode cs = bs

theorem Utf8.decode?_eq_none_iff {bs : Bytes} : decode? bs = none ↔ ¬ IsWellFormed bs := by
  rw [Option.eq_none_iff_forall_ne_some]
  simp only [ne_eq, decode?_eq_some_iff, IsWellFormed, not_exists]

namespace Environment

open Settings (Value)

/-! ## Variables -/

/-- The name of a variable is a text which in lower case begins as the names of variables that count
do, and goes on with `n`. -/
def Names (name : Bytes) (n : List Char) : Prop :=
  ∃ cs, Utf8.encode cs = name ∧ Text.lower cs = start ++ n

/-- The key that a name without its beginning stands for. -/
def keyOf (n : List Char) : String :=
  String.ofList (keyOfName n)

/-- A variable counts, but its value is no text. -/
def Garbled (v : Bytes × Bytes) : Prop :=
  (∃ n, Names v.1 n) ∧ ¬ Utf8.IsWellFormed v.2

theorem settingName?_eq_some_iff {name : Bytes} {n : List Char} :
    settingName? name = some n ↔ Names name n := by
  unfold settingName? Names
  rw [Option.bind_eq_some_iff]
  refine exists_congr fun cs => ?_
  rw [Utf8.decode?_eq_some_iff]
  refine and_congr_right fun _ => ?_
  dsimp only
  rw [Option.ite_none_right_eq_some, Option.some.injEq, List.isPrefixOf_iff_prefix]
  constructor
  · rintro ⟨⟨t, ht⟩, hn⟩
    rw [← ht, List.drop_left] at hn
    rw [← ht, hn]
  · intro h
    rw [h]
    exact ⟨List.prefix_append _ _, List.drop_left⟩

theorem settingName?_eq_none_iff {name : Bytes} :
    settingName? name = none ↔ ∀ n, ¬ Names name n := by
  rw [Option.eq_none_iff_forall_ne_some]
  simp only [ne_eq, settingName?_eq_some_iff]

theorem Names.unique {name : Bytes} {m n : List Char} (hm : Names name m) (hn : Names name n) :
    m = n := by
  rw [← settingName?_eq_some_iff] at hm hn
  exact Option.some.inj (hm.symm.trans hn)

theorem variable_cases (v : Bytes × Bytes) :
    (∀ n, ¬ Names v.1 n) ∨ (∃ n cs, Names v.1 n ∧ Utf8.encode cs = v.2) ∨ Garbled v := by
  by_cases hname : ∃ n, Names v.1 n
  · by_cases hvalue : Utf8.IsWellFormed v.2
    · obtain ⟨n, hn⟩ := hname
      obtain ⟨cs, hcs⟩ := hvalue
      exact .inr (.inl ⟨n, cs, hn, hcs⟩)
    · exact .inr (.inr ⟨hname, hvalue⟩)
  · exact .inl (not_exists.1 hname)

/-! ## One variable more -/

/-- The entry that a variable with a text makes. -/
def value (cs : List Char) : Value :=
  .leaf origin (scalarOfText cs)

section Step

variable {v : Bytes × Bytes} {n cs : List Char} (es : Entries Value) (env : Environment)

theorem layerFrom_cons_of_not_names (h : ∀ n, ¬ Names v.1 n) :
    layerFrom es (v :: env) = layerFrom es env := by
  rw [layerFrom, settingName?_eq_none_iff.2 h]

theorem layerFrom_cons_of_text (hn : Names v.1 n) (hcs : Utf8.encode cs = v.2) :
    layerFrom es (v :: env) = layerFrom (Entries.put (keyOf n) (value cs) es) env := by
  rw [layerFrom, settingName?_eq_some_iff.2 hn]
  simp only [Utf8.decode?_eq_some_iff.2 hcs]
  rfl

theorem layerFrom_cons_of_garbled (hn : Names v.1 n) (hv : ¬ Utf8.IsWellFormed v.2) :
    layerFrom es (v :: env) = .error (.undecodable (String.ofList n) v.2) := by
  rw [layerFrom, settingName?_eq_some_iff.2 hn]
  simp only [Utf8.decode?_eq_none_iff.2 hv]

end Step

/-! ## All variables -/

/-- The first garbled variable decides. -/
theorem layerFrom_eq_error {before later : Environment} {v : Bytes × Bytes} {n : List Char}
    (hbefore : ∀ w ∈ before, ¬ Garbled w) (hn : Names v.1 n) (hv : ¬ Utf8.IsWellFormed v.2)
    (es : Entries Value) :
    layerFrom es (before ++ v :: later) = .error (.undecodable (String.ofList n) v.2) := by
  induction before generalizing es with
  | nil => exact layerFrom_cons_of_garbled es later hn hv
  | cons w before ih =>
    have hrest := ih fun u hu => hbefore u (List.mem_cons_of_mem _ hu)
    rw [List.cons_append]
    rcases variable_cases w with hw | ⟨m, cs, hm, hcs⟩ | hw
    · rw [layerFrom_cons_of_not_names es _ hw, hrest]
    · rw [layerFrom_cons_of_text es _ hm hcs, hrest]
    · exact absurd hw (hbefore w List.mem_cons_self)

theorem exists_layerFrom_eq_ok {env : Environment} (h : ∀ v ∈ env, ¬ Garbled v)
    (es : Entries Value) : ∃ es', layerFrom es env = .ok es' := by
  induction env generalizing es with
  | nil => exact ⟨es, rfl⟩
  | cons v env ih =>
    have hrest := ih fun w hw => h w (List.mem_cons_of_mem _ hw)
    rcases variable_cases v with hv | ⟨n, cs, hn, hcs⟩ | hv
    · rw [layerFrom_cons_of_not_names es _ hv]
      exact hrest es
    · rw [layerFrom_cons_of_text es _ hn hcs]
      exact hrest _
    · exact absurd hv (h v List.mem_cons_self)

/-- If a variable is garbled, one of those that are is the first. -/
theorem exists_first_garbled {env : Environment} (h : ¬ ∀ v ∈ env, ¬ Garbled v) :
    ∃ before v later, env = before ++ v :: later ∧ (∀ w ∈ before, ¬ Garbled w) ∧ Garbled v := by
  induction env with
  | nil => exact absurd (fun v hv => absurd hv List.not_mem_nil) h
  | cons v env ih =>
    by_cases hv : Garbled v
    · exact ⟨[], v, env, rfl, fun w hw => absurd hw List.not_mem_nil, hv⟩
    · have hrest : ¬ ∀ w ∈ env, ¬ Garbled w := by
        intro hrest
        refine h fun w hw => ?_
        rcases List.mem_cons.1 hw with rfl | hw
        · exact hv
        · exact hrest w hw
      obtain ⟨before, w, later, henv, hbefore, hw⟩ := ih hrest
      refine ⟨v :: before, w, later, by rw [henv, List.cons_append], ?_, hw⟩
      intro u hu
      rcases List.mem_cons.1 hu with rfl | hu
      · exact hv
      · exact hbefore u hu

theorem layer_eq_error {before later : Environment} {v : Bytes × Bytes} {n : List Char}
    (hbefore : ∀ w ∈ before, ¬ Garbled w) (hn : Names v.1 n) (hv : ¬ Utf8.IsWellFormed v.2) :
    layer (before ++ v :: later) = .error (.undecodable (String.ofList n) v.2) :=
  layerFrom_eq_error hbefore hn hv []

theorem exists_layer_eq_ok {env : Environment} (h : ∀ v ∈ env, ¬ Garbled v) :
    ∃ es, env.layer = .ok es :=
  exists_layerFrom_eq_ok h []

/-! ## What the layer holds -/

/-- The text that a variable gives a key, if it does. -/
def textFor? (k : String) (v : Bytes × Bytes) : Option (List Char) :=
  (settingName? v.1).bind fun n => if keyOf n = k then Utf8.decode? v.2 else none

/-- The text that the last variable for a key gives it. -/
def lastText? (env : Environment) (k : String) : Option (List Char) :=
  env.reverse.findSome? (textFor? k)

theorem lastText?_cons (v : Bytes × Bytes) (env : Environment) (k : String) :
    lastText? (v :: env) k = (lastText? env k).or (textFor? k v) := by
  rw [lastText?, List.reverse_cons, List.findSome?_append, List.findSome?_singleton]
  rfl

theorem get?_layerFrom {env : Environment} {es es' : Entries Value}
    (h : layerFrom es env = .ok es') (k : String) :
    Entries.get? k es' = ((env.lastText? k).map value).or (Entries.get? k es) := by
  induction env generalizing es with
  | nil =>
    cases h
    rfl
  | cons v env ih =>
    rw [lastText?_cons]
    rcases variable_cases v with hv | ⟨n, cs, hn, hcs⟩ | ⟨⟨n, hn⟩, hv⟩
    · rw [layerFrom_cons_of_not_names es _ hv] at h
      rw [ih h, textFor?, settingName?_eq_none_iff.2 hv, Option.bind_none, Option.or_none]
    · rw [layerFrom_cons_of_text es _ hn hcs] at h
      have htext : textFor? k v = if keyOf n = k then some cs else none := by
        rw [textFor?, settingName?_eq_some_iff.2 hn, Option.bind_some,
          Utf8.decode?_eq_some_iff.2 hcs]
      rw [ih h, htext]
      by_cases hk : keyOf n = k
      · -- What this variable puts in shows only if no later one is for the same key.
        rw [if_pos hk, hk, Entries.get?_put_self]
        cases lastText? env k <;> rfl
      · rw [if_neg hk, Entries.get?_put_of_ne (Ne.symm hk), Option.or_none]
    · rw [layerFrom_cons_of_garbled es _ hn hv] at h
      cases h

/-- The layer holds for each key what the last variable for it gives. -/
theorem get?_layer {env : Environment} {es : Entries Value} (h : env.layer = .ok es) (k : String) :
    Entries.get? k es = (env.lastText? k).map value := by
  rw [get?_layerFrom h k]
  exact Option.or_none

/-- What every variable keeps, the whole environment keeps. -/
theorem layerFrom_keeps {P : Entries Value → Prop} {env : Environment}
    (hput : ∀ v ∈ env, ∀ n, Names v.1 n → ∀ cs es, P es → P (Entries.put (keyOf n) (value cs) es))
    {es es' : Entries Value} (h : layerFrom es env = .ok es') (hes : P es) : P es' := by
  induction env generalizing es with
  | nil =>
    cases h
    exact hes
  | cons v env ih =>
    have hlater := fun w hw => hput w (List.mem_cons_of_mem _ hw)
    rcases variable_cases v with hv | ⟨n, cs, hn, hcs⟩ | ⟨⟨n, hn⟩, hv⟩
    · rw [layerFrom_cons_of_not_names es _ hv] at h
      exact ih hlater h hes
    · rw [layerFrom_cons_of_text es _ hn hcs] at h
      exact ih hlater h (hput v List.mem_cons_self n hn cs es hes)
    · rw [layerFrom_cons_of_garbled es _ hn hv] at h
      cases h

theorem nodup_keys_layer {env : Environment} {es : Entries Value} (h : env.layer = .ok es) :
    (Entries.keys es).Nodup := by
  let P : Entries Value → Prop := fun es => (Entries.keys es).Nodup
  have hput : ∀ v ∈ env, ∀ n, Names v.1 n → ∀ cs es, P es →
      P (Entries.put (keyOf n) (value cs) es) := by
    intro v _ n _ cs es hes
    exact Entries.nodup_keys_put hes _
  exact layerFrom_keeps hput h List.nodup_nil

/-- Every entry of the layer is made by a variable. -/
theorem mem_layer {env : Environment} {es : Entries Value} (h : env.layer = .ok es)
    {e : String × Value} (he : e ∈ es) :
    ∃ v ∈ env, ∃ n cs, Names v.1 n ∧ e = (keyOf n, value cs) := by
  let P : Entries Value → Prop := fun es =>
    ∀ e ∈ es, ∃ v ∈ env, ∃ n cs, Names v.1 n ∧ e = (keyOf n, value cs)
  have hput : ∀ v ∈ env, ∀ n, Names v.1 n → ∀ cs es, P es →
      P (Entries.put (keyOf n) (value cs) es) := by
    intro v hv n hn cs es hes d hd
    rcases Entries.mem_of_mem_put hd with rfl | hd
    · exact ⟨v, hv, n, cs, hn, rfl⟩
    · exact hes d hd
  exact layerFrom_keeps hput h (fun _ hd => absurd hd List.not_mem_nil) e he

end Environment

end Enrollment
