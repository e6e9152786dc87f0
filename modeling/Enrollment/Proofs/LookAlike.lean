import Enrollment.Proofs.Listing

/-!
# Lines that look alike

Ids and names are printed as they are, so two students may print the same line:
what the one has at the end of the id the other has at the front of the name.  As
a mark cannot begin inside itself (`prefix_of_prefix_append`), this is the only way
(`Student.line_eq_iff`), and two who print the same line do not have the same id
(`Student.id_extends_of_line_eq`).  Below the header of a listing a line stands as
often as there are students who print it (`Registrar.listing_counts_lines`), which
is once where no two students are shifted so.
-/

namespace Enrollment

namespace Student

/-- The mark between id and name is taken one place further on for the second student than for the
first: what stands between the two places is the end of an id there and the front of a name here. -/
def Shifted (s t : Student) : Prop :=
  s.age = t.age ∧ ∃ between, t.id = s.id ++ ", Name: " ++ between ∧
    s.name = between ++ ", Name: " ++ t.name

/-! ## The same line -/

theorem append_nameMark {id id' name name' : List Char}
    (h : id ++ (nameMark ++ name) = id' ++ (nameMark ++ name')) (hlen : id.length ≤ id'.length) :
    id = id' ∧ name = name' ∨
      ∃ between, id' = id ++ (nameMark ++ between) ∧ name = between ++ (nameMark ++ name') := by
  obtain ⟨more, rfl⟩ : id <+: id' := by
    apply List.prefix_of_prefix_length_le (List.prefix_append id (nameMark ++ name)) _ hlen
    rw [h]
    exact List.prefix_append id' _
  rw [List.append_assoc, List.append_right_inj] at h
  by_cases hmore : more = []
  · subst hmore
    rw [List.nil_append, List.append_right_inj] at h
    exact .inl ⟨(List.append_nil id).symm, h⟩
  · -- What the longer id has more begins with a mark of its own.
    have hmark : nameMark <+: more := by
      have hm : ',' ∉ " Name: ".toList := by decide
      have hstart : nameMark <+: more ++ (nameMark ++ name') := ⟨name, h⟩
      exact prefix_of_prefix_append hmore hm hstart
    obtain ⟨between, rfl⟩ := hmark
    rw [List.append_assoc, List.append_right_inj] at h
    exact .inr ⟨between, rfl, h⟩

theorem toList_append_nameMark (s t : String) :
    (s ++ ", Name: " ++ t).toList = s.toList ++ (nameMark ++ t.toList) := by
  rw [String.toList_append, String.toList_append, List.append_assoc]
  rfl

theorem shifted_of_toList {s t : Student} (hage : s.age = t.age) {between : List Char}
    (hid : t.id.toList = s.id.toList ++ (nameMark ++ between))
    (hname : s.name.toList = between ++ (nameMark ++ t.name.toList)) : s.Shifted t := by
  refine ⟨hage, String.ofList between, ?_, ?_⟩
  · rw [← String.toList_inj, toList_append_nameMark, String.toList_ofList, hid]
  · rw [← String.toList_inj, toList_append_nameMark, String.toList_ofList, hname]

theorem Shifted.line_eq {s t : Student} (h : s.Shifted t) : s.line = t.line := by
  obtain ⟨hage, between, hid, hname⟩ := h
  rw [line, line, hid, hname, hage]
  simp only [String.append_assoc]

theorem Shifted.exists_more {s t : Student} (h : s.Shifted t) :
    ∃ more, t.id = s.id ++ ", Name: " ++ more := by
  obtain ⟨-, between, hid, -⟩ := h
  exact ⟨between, hid⟩

theorem Shifted.id_ne {s t : Student} (h : s.Shifted t) : s.id ≠ t.id := by
  obtain ⟨more, hid⟩ := h.exists_more
  rw [hid]
  intro heq
  have hlen := congrArg String.length heq
  simp only [String.length_append] at hlen
  have hmark : ", Name: ".length = 8 := by decide
  omega

theorem Shifted.ne {s t : Student} (h : s.Shifted t) : s ≠ t :=
  fun heq => h.id_ne (congrArg Student.id heq)

/-- A line determines the age, which comes after the last mark of its kind, and what stands before
that mark. -/
theorem age_eq_of_line_eq {s t : Student} (h : s.line = t.line) :
    s.age = t.age ∧
      s.id.toList ++ (nameMark ++ s.name.toList) = t.id.toList ++ (nameMark ++ t.name.toList) := by
  have hsplit : ∀ s : Student, s.line.toList = "ID: ".toList ++
      (s.id.toList ++ (nameMark ++ s.name.toList) ++ (ageMark ++ (toString s.age.toInt).toList)) := by
    intro s
    rw [toList_line, List.append_assoc, List.append_assoc]
  have hline := congrArg String.toList h
  rw [hsplit, hsplit, List.append_right_inj] at hline
  have hcut := congrArg (cutLast? ageMark) hline
  have hafter : ∀ n : Int32, ',' ∉ (toString n.toInt).toList :=
    fun n => not_mem_age (by decide) (by decide) n.toInt
  have hmark : ',' ∉ " Age: ".toList := by decide
  have hlast : ∀ (before : List Char) (n : Int32),
      cutLast? ageMark (before ++ (ageMark ++ (toString n.toInt).toList)) =
        some (before, (toString n.toInt).toList) :=
    fun before n => cutLast?_append hmark (hafter n) before
  rw [hlast, hlast, Option.some.injEq, Prod.mk.injEq] at hcut
  obtain ⟨hbefore, hage⟩ := hcut
  have hword := congrArg Decimal.word? hage
  rw [word?_age, word?_age, Option.some.injEq, Int32.toInt_inj] at hword
  exact ⟨hword, hbefore⟩

/-- A line determines a student up to where the mark between id and name is taken. -/
theorem line_eq_iff {s t : Student} : s.line = t.line ↔ s = t ∨ s.Shifted t ∨ t.Shifted s := by
  constructor
  · intro h
    obtain ⟨hage, hbefore⟩ := age_eq_of_line_eq h
    have hsame : s.id.toList = t.id.toList → s.name.toList = t.name.toList → s = t := by
      intro hid hname
      rw [String.toList_inj] at hid hname
      cases s
      cases t
      simp only at hid hname hage
      rw [hid, hname, hage]
    rcases Nat.le_total s.id.toList.length t.id.toList.length with hlen | hlen
    · rcases append_nameMark hbefore hlen with ⟨hid, hname⟩ | ⟨between, hid, hname⟩
      · exact .inl (hsame hid hname)
      · exact .inr (.inl (shifted_of_toList hage hid hname))
    · rcases append_nameMark hbefore.symm hlen with ⟨hid, hname⟩ | ⟨between, hid, hname⟩
      · exact .inl (hsame hid.symm hname.symm)
      · exact .inr (.inr (shifted_of_toList hage.symm hid hname))
  · rintro (rfl | h | h)
    · rfl
    · exact h.line_eq
    · exact h.line_eq.symm

/-- Students who print the same line are of one age.  If they are not the same, then the id of one of
them goes on, after all of the other's, with the mark and some more, so a line and an id determine a
student. -/
theorem id_extends_of_line_eq {s t : Student} (h : s.line = t.line) :
    s.age = t.age ∧
      (s = t ∨ (∃ more, t.id = s.id ++ ", Name: " ++ more) ∨
        ∃ more, s.id = t.id ++ ", Name: " ++ more) ∧
      (s.id = t.id → s = t) := by
  obtain ⟨hage, -⟩ := age_eq_of_line_eq h
  rcases line_eq_iff.1 h with heq | hshift | hshift
  · exact ⟨hage, .inl heq, fun _ => heq⟩
  · exact ⟨hage, .inr (.inl hshift.exists_more), fun heq => absurd heq hshift.id_ne⟩
  · exact ⟨hage, .inr (.inr hshift.exists_more), fun heq => absurd heq.symm hshift.id_ne⟩

/-- The mark stands twice in the id of one and twice in the name of the other, among line breaks and
with an age in the name that is not theirs. -/
theorem id_extends_of_line_eq_two_marks :
    let s : Student := ⟨"a\n", "b, Name: , Name: c, Age: 7", -3⟩
    let t : Student := ⟨"a\n, Name: b, Name: ", "c, Age: 7", -3⟩
    s.line = t.line ∧ s ≠ t ∧ ∃ more, t.id = s.id ++ ", Name: " ++ more := by
  intro s t
  have hline : s.line = t.line := by decide +kernel
  have hne : s ≠ t := by decide
  obtain ⟨-, heq | hmore | ⟨more, hmore⟩, -⟩ := id_extends_of_line_eq hline
  · exact absurd heq hne
  · exact ⟨hline, hne, hmore⟩
  · have hlen := congrArg String.length hmore
    rw [String.length_append, String.length_append] at hlen
    have hs : s.id.length = 2 := by decide
    have ht : t.id.length = 19 := by decide
    omega

end Student

/-! ## The lines of a listing -/

theorem countP_eq_one_iff {α : Type} [DecidableEq α] {l : List α} {p : α → Bool} {a : α}
    (hl : l.Nodup) (ha : a ∈ l) (hp : p a = true) : l.countP p = 1 ↔ ∀ b ∈ l, p b = true → b = a := by
  have hperm := List.perm_cons_erase ha
  rw [hperm.countP_eq, List.countP_cons_of_pos hp, Nat.add_eq_right, List.countP_eq_zero]
  constructor
  · intro h b hb hpb
    by_contra hne
    exact h b ((hl.mem_erase_iff).2 ⟨hne, hb⟩) hpb
  · intro h b hb hpb
    obtain ⟨hne, hmem⟩ := hl.mem_erase_iff.1 hb
    exact hne (h b hmem hpb)

theorem count_lines_of_perm {students listed : List Student} (h : listed.Perm students) (s : Student) :
    (listed.map fun t => t.line.toList).count s.line.toList = students.countP (·.line = s.line) := by
  rw [List.count, List.countP_map, ← h.countP_eq]
  apply List.countP_congr
  intro t _
  simp [String.toList_inj]

namespace Register

theorem nodup_students (r : Register) : r.students.Nodup := by
  have hids := r.distinct
  rw [← map_id_students] at hids
  exact hids.of_map

theorem mem_students_iff {r : Register} {s : Student} :
    s ∈ r.students ↔ r.get? s.id = some s := by
  rw [get?_eq_some_iff, and_iff_left rfl]

/-- A student is the only one of a register who prints a line unless another one is shifted. -/
theorem countP_line_eq_one_iff {r : Register} {s : Student} (hs : r.get? s.id = some s) :
    r.students.countP (·.line = s.line) = 1 ↔
      ∀ t, r.get? t.id = some t → ¬ s.Shifted t ∧ ¬ t.Shifted s := by
  rw [countP_eq_one_iff r.nodup_students (mem_students_iff.2 hs) (decide_eq_true rfl)]
  constructor
  · intro h t ht
    have hsame : t.line = s.line → t = s := fun hline =>
      h t (mem_students_iff.2 ht) (decide_eq_true hline)
    exact ⟨fun hst => hst.ne (hsame hst.line_eq.symm).symm, fun hts => hts.ne (hsame hts.line_eq)⟩
  · intro h t ht hline
    obtain ⟨hst, hts⟩ := h t (mem_students_iff.1 ht)
    rcases Student.line_eq_iff.1 (of_decide_eq_true hline) with heq | hshift | hshift
    · exact heq
    · exact absurd hshift hts
    · exact absurd hshift hst

end Register

namespace Registrar

theorem Lists.linesBelow?_eq {settings : Settings} {sink : Sink} {calls : List Call} {order : Order}
    {bs : Bytes} (h : ((fresh settings sink).after calls).Lists order bs)
    (hplain : ∀ s ∈ Call.entered calls, '\n' ∉ s.id.toList ∧ '\n' ∉ s.name.toList) :
    linesBelow? settings.header bs =
      some ((((fresh settings sink).after calls).register.arranged order).map
        fun s => s.line.toList) := by
  have hsettings : ((fresh settings sink).after calls).settings = settings := after_settings _ _
  rw [h.eq, hsettings]
  apply linesBelow?_listing
  intro s hs
  rw [Register.mem_arranged_iff, after_holds] at hs
  obtain ⟨hid, hname⟩ := hplain s (List.mem_of_find?_eq_some hs)
  exact Student.not_mem_line hid hname

/-- Below the header of a listing that succeeds, the line of a student stands as often as there are
students who print it: once, if and only if no student is shifted against him. -/
theorem listing_counts_lines {settings : Settings} {sink : Sink} {calls : List Call}
    (hplain : ∀ s ∈ Call.entered calls, '\n' ∉ s.id.toList ∧ '\n' ∉ s.name.toList) :
    let r := (fresh settings sink).after calls
    ∀ order, (r.listIn order).1 = .ok () →
      ∃ bs lines, r.Lists order bs ∧ linesBelow? settings.header bs = some lines ∧
        ∀ s, r.register.get? s.id = some s →
          let line := "ID: " ++ s.id ++ ", Name: " ++ s.name ++ ", Age: " ++ toString s.age.toInt
          lines.count line.toList = r.register.students.countP (·.line = line) ∧
          (lines.count line.toList = 1 ↔
            ∀ t, r.register.get? t.id = some t → ¬ s.Shifted t ∧ ¬ t.Shifted s) := by
  intro r order hok
  obtain ⟨bs, hbs⟩ := exists_lists hok
  refine ⟨bs, _, hbs, hbs.linesBelow?_eq hplain, fun s hs => ?_⟩
  intro line
  have hcount := count_lines_of_perm (r.register.arranged_perm order) s
  have hline : line = s.line := rfl
  rw [hline, hcount]
  exact ⟨rfl, Register.countP_line_eq_one_iff hs⟩

/-- Three students, of whom the first two print the same line, as the id of the second holds the mark
and so does the name of the first. -/
theorem listing_counts_lines_three :
    let ann : Student := ⟨"a", "b, Name: c", -1⟩
    let bob : Student := ⟨"a, Name: b", "c", -1⟩
    let cid : Student := ⟨"b", "c", -1⟩
    let r := (fresh ⟨"\n", true⟩ {}).after [.enter ann, .enter bob, .list .entry, .enter cid]
    ∃ bs lines, r.Lists .entry bs ∧ linesBelow? "\n" bs = some lines ∧
      lines.count "ID: a, Name: b, Name: c, Age: -1".toList = 2 ∧
      lines.count "ID: b, Name: c, Age: -1".toList = 1 ∧
      ∀ t, r.register.get? t.id = some t → ¬ cid.Shifted t ∧ ¬ t.Shifted cid := by
  intro ann bob cid r
  have hplain : ∀ s ∈ Call.entered [.enter ann, .enter bob, .list .entry, .enter cid],
      '\n' ∉ s.id.toList ∧ '\n' ∉ s.name.toList := by
    decide
  have hok : (r.listIn .entry).1 = .ok () := listIn_fresh_ok _ _ _
  have hregister : r.register = Register.empty.enterAll [ann, bob, cid] := after_register _ _
  obtain ⟨bs, lines, hlists, hlines, hcount⟩ := listing_counts_lines hplain .entry hok
  obtain ⟨hann, -⟩ := hcount ann (by rw [hregister]; decide)
  obtain ⟨hcid, honce⟩ := hcount cid (by rw [hregister]; decide)
  refine ⟨bs, lines, hlists, hlines, ?_, ?_, ?_⟩
  · exact hann.trans (by rw [hregister]; decide +kernel)
  · exact hcid.trans (by rw [hregister]; decide +kernel)
  · exact honce.1 (hcid.trans (by rw [hregister]; decide +kernel))

/-- A listing that succeeds may print one line for two students whose ids and names are free of line
breaks. -/
theorem listing_prints_line_twice :
    let ann : Student := ⟨"a", "b, Name: c", 1⟩
    let bob : Student := ⟨"a, Name: b", "c", 1⟩
    let r := (fresh .standard {}).after [.enter ann, .enter bob]
    (∀ s ∈ [ann, bob], '\n' ∉ s.id.toList ∧ '\n' ∉ s.name.toList) ∧
      (r.listIn .entry).1 = .ok () ∧ r.register.get? "a" = some ann ∧
      ∃ bs lines, r.Lists .entry bs ∧ linesBelow? "All Students:" bs = some lines ∧
        lines.count "ID: a, Name: b, Name: c, Age: 1".toList = 2 := by
  intro ann bob r
  have hplain : ∀ s ∈ [ann, bob], '\n' ∉ s.id.toList ∧ '\n' ∉ s.name.toList := by decide
  have hok : (r.listIn .entry).1 = .ok () := listIn_fresh_ok _ _ _
  have hregister : r.register = Register.empty.enterAll [ann, bob] := after_register _ _
  obtain ⟨bs, hbs⟩ := exists_lists hok
  refine ⟨hplain, hok, by rw [hregister]; decide, bs, _, hbs, hbs.linesBelow?_eq hplain, ?_⟩
  rw [hregister]
  decide +kernel

end Registrar

end Enrollment
