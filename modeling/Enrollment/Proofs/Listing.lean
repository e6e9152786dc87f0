import Enrollment.Proofs.Rearrangement
import Enrollment.Proofs.Transcript
import Enrollment.Proofs.Utf8
import Enrollment.Number.Decimal
import Mathlib.Data.List.Basic

/-!
# What a listing tells

A listing can be read back: what follows the header falls into lines, and a line
into an id, a name and an age.  The mark between id and name counts where it
stands first and the mark between name and age where it stands last
(`cutFirst?_append`, `cutLast?_append`), so a name may contain both of them.  As
every line is read as its student (`ofLine?_line`), a listing that has been
written tells all students of the register (`listing_tells_students`).
-/

namespace Enrollment

/-! ## Cutting a text at a mark -/

/-- What stands before and after the first occurrence of a mark. -/
def cutFirst? (mark : List Char) : List Char → Option (List Char × List Char)
  | [] => none
  | c :: cs =>
    match mark.isPrefixOf? (c :: cs) with
    | some after => some ([], after)
    | none => (cutFirst? mark cs).map fun cut => (c :: cut.1, cut.2)

/-- What stands before and after the last occurrence of a mark. -/
def cutLast? (mark : List Char) : List Char → Option (List Char × List Char)
  | [] => none
  | c :: cs =>
    match cutLast? mark cs with
    | some cut => some (c :: cut.1, cut.2)
    | none => (mark.isPrefixOf? (c :: cs)).map fun after => ([], after)

section Cut

variable {m : Char} {ms : List Char}

theorem isPrefixOf?_append_self (mark after : List Char) :
    mark.isPrefixOf? (mark ++ after) = some after :=
  List.isPrefixOf?_eq_some_iff_append_eq.2 rfl

theorem isPrefixOf?_eq_none {mark s : List Char} (h : ¬ mark <+: s) :
    mark.isPrefixOf? s = none := by
  rw [Option.eq_none_iff_forall_ne_some]
  intro after hafter
  exact h ⟨after, List.isPrefixOf?_eq_some_iff_append_eq.1 hafter⟩

/-- A mark whose first character does not come again in it cannot begin before the place where it
has been put, unless it stands there already. -/
theorem prefix_of_prefix_append {before after : List Char} (hne : before ≠ []) (hm : m ∉ ms)
    (h : m :: ms <+: before ++ (m :: ms ++ after)) : m :: ms <+: before := by
  -- Either the whole mark lies in what stands before, or it reaches over into the one put there.
  rcases List.prefix_or_prefix_of_prefix h (List.prefix_append before _) with hin | hover
  · exact hin
  · obtain ⟨t, ht⟩ := hover
    rw [← ht, List.prefix_append_right_inj, ht] at h
    cases t with
    | nil =>
      rw [List.append_nil] at ht
      rw [ht]
    | cons d t =>
      obtain ⟨c, cs, rfl⟩ := List.exists_cons_of_ne_nil hne
      have hd : d = m := (List.cons_prefix_cons.1 h).1
      have hms : cs ++ d :: t = ms := (List.cons.inj ht).2
      apply absurd _ hm
      rw [← hms, hd]
      exact List.mem_append_right _ List.mem_cons_self

theorem cutFirst?_append {before : List Char} (hm : m ∉ ms) (h : ¬ m :: ms <:+: before)
    (after : List Char) :
    cutFirst? (m :: ms) (before ++ (m :: ms ++ after)) = some (before, after) := by
  induction before with
  | nil =>
    rw [List.nil_append, List.cons_append, cutFirst?, ← List.cons_append, isPrefixOf?_append_self]
  | cons c cs ih =>
    have hhere : ¬ m :: ms <+: c :: cs ++ (m :: ms ++ after) := fun hprefix =>
      h (prefix_of_prefix_append (List.cons_ne_nil c cs) hm hprefix).isInfix
    have hlater : ¬ m :: ms <:+: cs := fun hin => h (hin.trans (List.suffix_cons c cs).isInfix)
    rw [List.cons_append] at hhere
    rw [List.cons_append, cutFirst?, isPrefixOf?_eq_none hhere, ih hlater]
    rfl

theorem cutLast?_eq_none {s : List Char} (h : m ∉ s) : cutLast? (m :: ms) s = none := by
  induction s with
  | nil => rfl
  | cons c cs ih =>
    obtain ⟨hc, hcs⟩ := not_or.1 (mt List.mem_cons.2 h)
    have hhere : ¬ m :: ms <+: c :: cs := fun hprefix => hc (List.cons_prefix_cons.1 hprefix).1
    rw [cutLast?, ih hcs, isPrefixOf?_eq_none hhere]
    rfl

theorem cutLast?_append {after : List Char} (hms : m ∉ ms) (hafter : m ∉ after)
    (before : List Char) :
    cutLast? (m :: ms) (before ++ (m :: ms ++ after)) = some (before, after) := by
  induction before with
  | nil =>
    have hlater : m ∉ ms ++ after := by
      rw [List.mem_append, not_or]
      exact ⟨hms, hafter⟩
    rw [List.nil_append, List.cons_append, cutLast?, cutLast?_eq_none hlater, ← List.cons_append,
      isPrefixOf?_append_self]
    rfl
  | cons c cs ih => rw [List.cons_append, cutLast?, ih]

end Cut

/-! ## Lines -/

namespace Student

/-- What stands between the id and the name in a line. -/
def nameMark : List Char := ", Name: ".toList

/-- What stands between the name and the age in a line. -/
def ageMark : List Char := ", Age: ".toList

/-- The id and the name stay on one line, and the id does not end early. -/
structure Plain (s : Student) : Prop where
  id_line : '\n' ∉ s.id.toList
  id_mark : ¬ nameMark <:+: s.id.toList
  name_line : '\n' ∉ s.name.toList

/-- The student whom a line shows. -/
def ofLine? (line : List Char) : Option Student := do
  let rest ← "ID: ".toList.isPrefixOf? line
  let (id, rest) ← cutFirst? nameMark rest
  let (name, rest) ← cutLast? ageMark rest
  let age ← Decimal.word? rest
  some ⟨String.ofList id, String.ofList name, Int32.ofInt age⟩

theorem toList_line (s : Student) :
    s.line.toList = "ID: ".toList ++ (s.id.toList ++ (nameMark ++ (s.name.toList ++ (ageMark ++
      (toString s.age.toInt).toList)))) := by
  rw [line, String.toList_append, String.toList_append, String.toList_append, String.toList_append,
    String.toList_append, List.append_assoc, List.append_assoc, List.append_assoc, List.append_assoc]
  rfl

theorem not_mem_age {c : Char} (hdigit : c.isDigit = false) (hsign : c ≠ '-') (n : Int) :
    c ∉ (toString n).toList := by
  intro hc
  rw [Decimal.toList_toString] at hc
  rcases List.mem_append.1 hc with hc | hc
  · split at hc
    · exact hsign (List.mem_singleton.1 hc)
    · cases hc
  · have hc' : c.isDigit = true := Nat.isDigit_of_mem_toDigits (by decide) (by decide) hc
    rw [hdigit] at hc'
    cases hc'

theorem word?_age (n : Int32) : Decimal.word? (toString n.toInt).toList = some n.toInt := by
  apply Decimal.word?_toString
  have hlow := n.le_toInt
  have hhigh := n.toInt_lt
  rw [Decimal.fitsWord, decide_eq_true_eq]
  omega

/-- A line is read as the student that it was written for. -/
theorem ofLine?_line {s : Student} (h : s.Plain) : ofLine? s.line.toList = some s := by
  have hage : ',' ∉ (toString s.age.toInt).toList := not_mem_age (by decide) (by decide) _
  have hid : ∀ after, cutFirst? nameMark (s.id.toList ++ (nameMark ++ after)) =
      some (s.id.toList, after) := by
    intro after
    exact cutFirst?_append (by decide) h.id_mark after
  have hname : cutLast? ageMark (s.name.toList ++ (ageMark ++ (toString s.age.toInt).toList)) =
      some (s.name.toList, (toString s.age.toInt).toList) :=
    cutLast?_append (by decide) hage s.name.toList
  rw [ofLine?, toList_line, isPrefixOf?_append_self]
  simp only [Option.bind_eq_bind, Option.bind_some, hid, hname, word?_age, String.ofList_toList,
    Int32.ofInt_toInt]

theorem not_mem_line {s : Student} (hid : '\n' ∉ s.id.toList) (hname : '\n' ∉ s.name.toList) :
    '\n' ∉ s.line.toList := by
  have hage := not_mem_age (c := '\n') (by decide) (by decide) s.age.toInt
  have hmarks : '\n' ∉ "ID: ".toList ∧ '\n' ∉ nameMark ∧ '\n' ∉ ageMark := by decide
  simp only [toList_line, List.mem_append, not_or]
  exact ⟨hmarks.1, hid, hmarks.2.1, hname, hmarks.2.2, hage⟩

end Student

/-! ## Listings -/

/-- The lines below the header in the bytes of a listing, without their newlines. -/
def linesBelow? (header : String) (bs : Bytes) : Option (List (List Char)) := do
  let text ← Utf8.decode? bs
  let rest ← (header.toList ++ ['\n']).isPrefixOf? text
  some (rest.splitOn '\n').dropLast

/-- The students that the bytes of a listing show, whose header is known. -/
def readListing? (header : String) (bs : Bytes) : Option (List Student) := do
  let text ← Utf8.decode? bs
  let rest ← (header.toList ++ ['\n']).isPrefixOf? text
  ((rest.splitOn '\n').dropLast).mapM Student.ofLine?

theorem splitOn_lines {lines : List (List Char)} (h : ∀ line ∈ lines, '\n' ∉ line) :
    (lines.flatMap fun line => line ++ ['\n']).splitOn '\n' = lines ++ [[]] := by
  induction lines with
  | nil => rfl
  | cons line lines ih =>
    have hline := h line List.mem_cons_self
    have hlines := ih fun l hl => h l (List.mem_cons_of_mem _ hl)
    rw [List.flatMap_cons, List.append_assoc, List.singleton_append,
      List.splitOn_append_cons_of_beq _ _ (beq_self_eq_true _), List.splitOn_eq_singleton hline,
      hlines]
    rfl

theorem toList_listing (settings : Settings) (students : List Student) :
    (String.join (Registrar.listing settings students)).toList =
      settings.header.toList ++ ['\n'] ++
        (students.map fun s => s.line.toList).flatMap fun line => line ++ ['\n'] := by
  rw [Registrar.listing, String.toList_join, List.flatMap_cons, List.flatMap_cons,
    List.flatMap_assoc, List.flatMap_map, List.append_assoc]
  rfl

theorem linesBelow?_listing (settings : Settings) {students : List Student}
    (h : ∀ s ∈ students, '\n' ∉ s.line.toList) :
    linesBelow? settings.header (bytesOf (String.join (Registrar.listing settings students))) =
      some (students.map fun s => s.line.toList) := by
  have hlines : ∀ line ∈ students.map fun s => s.line.toList, '\n' ∉ line := by
    intro line hline
    obtain ⟨s, hs, rfl⟩ := List.mem_map.1 hline
    exact h s hs
  rw [linesBelow?, bytesOf, Utf8.decode?_eq_some_iff.2 rfl, toList_listing]
  simp only [Option.bind_eq_bind, Option.bind_some, isPrefixOf?_append_self,
    splitOn_lines hlines, List.dropLast_concat]

theorem readListing?_eq (header : String) (bs : Bytes) :
    readListing? header bs = (linesBelow? header bs).bind (·.mapM Student.ofLine?) := by
  rw [readListing?, linesBelow?]
  simp only [Option.bind_eq_bind, Option.bind_assoc, Option.bind_some]

theorem mapM_eq_some_of_forall {α β : Type} {f : α → Option β} {g : β → α} {bs : List β}
    (h : ∀ b ∈ bs, f (g b) = some b) : (bs.map g).mapM f = some bs := by
  induction bs with
  | nil => rfl
  | cons b bs ih =>
    have hb := h b List.mem_cons_self
    have hbs := ih fun d hd => h d (List.mem_cons_of_mem _ hd)
    rw [List.map_cons, List.mapM_cons, hb, hbs]
    rfl

/-- A listing is read as the students that it was written for, in their order. -/
theorem readListing?_listing (settings : Settings) {students : List Student}
    (h : ∀ s ∈ students, s.Plain) :
    readListing? settings.header (bytesOf (String.join (Registrar.listing settings students))) =
      some students := by
  have hlines := linesBelow?_listing settings fun s hs =>
    Student.not_mem_line (h s hs).id_line (h s hs).name_line
  rw [readListing?_eq, hlines, Option.bind_some]
  exact mapM_eq_some_of_forall fun s hs => Student.ofLine?_line (h s hs)

/-! ## A listing that succeeds -/

namespace Sink

/-- Bytes that have been written without failure are there. -/
theorem written_of_put_ok {s t : Sink} {bs : Bytes} (h : s.put bs = (.ok (), t)) :
    t.written = s.written ++ bs := by
  fun_induction Sink.put s bs with
  | case1 s =>
    cases h
    rw [List.append_nil]
  | case2 s bs hbs u hu _ ih =>
    rcases s.offer_cases hbs with hs | ⟨hs, -⟩ | ⟨n, served, -, -, hs⟩ <;> rw [hu] at hs
    · cases hs
      exact ih h
    · cases hs
    · cases hs
  | case3 s bs hbs n u hu _ ih =>
    rcases s.offer_cases hbs with hs | ⟨hs, -⟩ | ⟨m, served, -, -, hs⟩ <;> rw [hu] at hs
    · cases hs
    · cases hs
    · cases hs
      rw [ih h, List.append_assoc, List.take_append_drop]
  | case4 s bs hbs u hu => cases h

theorem written_of_putAll_ok {s t : Sink} {pieces : List Bytes}
    (h : s.putAll pieces = (.ok (), t)) : t.written = s.written ++ pieces.flatten := by
  induction pieces generalizing s with
  | nil =>
    cases h
    rw [List.flatten_nil, List.append_nil]
  | cons bs rest ih =>
    unfold putAll at h
    split at h
    · cases h
    · next u hu => rw [ih h, written_of_put_ok hu, List.flatten_cons, List.append_assoc]

end Sink

namespace Registrar

theorem written_of_publish_ok {r : Registrar} {pieces : List String}
    (h : (r.publish pieces).1 = .ok ()) :
    (r.publish pieces).2.sink.written = r.sink.written ++ bytesOf (String.join pieces) := by
  unfold publish at h ⊢
  split at h
  · cases h
  · next t ht =>
    have hwritten := Sink.written_of_putAll_ok ht
    rw [bytesOf_join]
    exact hwritten

/-- Listing the students in some order succeeds and adds these bytes to the sink. -/
structure Lists (r : Registrar) (order : Order) (bs : Bytes) : Prop where
  ok : (r.listIn order).1 = .ok ()
  written : (r.listIn order).2.sink.written = r.sink.written ++ bs

theorem Lists.eq {r : Registrar} {order : Order} {bs : Bytes} (h : r.Lists order bs) :
    bs = bytesOf (String.join (listing r.settings (r.register.arranged order))) := by
  have hwritten := written_of_publish_ok h.ok
  exact List.append_cancel_left (h.written.symm.trans hwritten)

theorem exists_lists {r : Registrar} {order : Order} (h : (r.listIn order).1 = .ok ()) :
    ∃ bs, r.Lists order bs :=
  ⟨_, h, written_of_publish_ok h⟩

theorem listIn_ok_of_reliable {r : Registrar} (h : r.sink.device.Reliable) (order : Order) :
    (r.listIn order).1 = .ok () := by
  have htold := publish_published
    (r := { r with log := r.log ++ [Event.listing r.register.size] })
    (listing r.settings (r.register.arranged order)) (h.admits _)
  have hresult := htold.result
  rw [if_pos (h.admits _), h.flushes] at hresult
  exact hresult

theorem listIn_fresh_ok (settings : Settings) (calls : List Call) (order : Order) :
    (((fresh settings {}).after calls).listIn order).1 = .ok () := by
  have hstart : (fresh settings {}).sink.device.Reliable := ⟨rfl, fun _ => rfl⟩
  exact listIn_ok_of_reliable (reliable_after hstart calls) order

theorem plain_of_mem_arranged {settings : Settings} {sink : Sink} {calls : List Call}
    {order : Order} (h : ∀ s ∈ Call.entered calls, s.Plain) {s : Student}
    (hs : s ∈ ((fresh settings sink).after calls).register.arranged order) : s.Plain := by
  rw [Register.mem_arranged_iff, after_holds] at hs
  exact h s (List.mem_of_find?_eq_some hs)

theorem Lists.read {settings : Settings} {sink : Sink} {calls : List Call} {order : Order}
    {bs : Bytes} (h : ((fresh settings sink).after calls).Lists order bs)
    (hplain : ∀ s ∈ Call.entered calls, s.Plain) :
    readListing? settings.header bs =
      some (((fresh settings sink).after calls).register.arranged order) := by
  have hsettings : ((fresh settings sink).after calls).settings = settings := after_settings _ _
  rw [h.eq, hsettings]
  exact readListing?_listing settings fun s hs => plain_of_mem_arranged hplain hs

/-- A listing that succeeds can be read back, and what is read is every student of the register
once and nobody else.  So listings with the same header and the same bytes come from registers with
the same students. -/
theorem listing_tells_students {settings : Settings} {sink : Sink} {calls : List Call}
    (hplain : ∀ s ∈ Call.entered calls, s.Plain) :
    let r := (fresh settings sink).after calls
    (∀ order, (r.listIn order).1 = .ok () → ∃ bs students, r.Lists order bs ∧
      readListing? settings.header bs = some students ∧ (students.map Student.id).Nodup ∧
      ∀ s, s ∈ students ↔ r.register.get? s.id = some s) ∧
    ∀ (settings' : Settings) (sink' : Sink) (calls' : List Call),
      settings'.header = settings.header → (∀ s ∈ Call.entered calls', s.Plain) →
      let r' := (fresh settings' sink').after calls'
      ∀ order order' bs, r.Lists order bs → r'.Lists order' bs →
        r.register.SameStudents r'.register := by
  intro r
  refine ⟨?_, ?_⟩
  · intro order hok
    obtain ⟨bs, hbs⟩ := exists_lists hok
    exact ⟨bs, r.register.arranged order, hbs, hbs.read hplain,
      r.register.nodup_map_id_arranged order, fun s => Register.mem_arranged_iff⟩
  · intro settings' sink' calls' hheader hplain' r' order order' bs h h'
    have hread := h.read hplain
    rw [← hheader, h'.read hplain', Option.some.injEq] at hread
    have hstudents : ∀ s, s ∈ r.register.students ↔ s ∈ r'.register.students := by
      intro s
      rw [← (r.register.arranged_perm order).mem_iff, ← hread,
        (r'.register.arranged_perm order').mem_iff]
    apply Register.sameStudents_of_get?
    intro id
    apply Option.ext
    intro s
    rw [Register.get?_eq_some_iff, Register.get?_eq_some_iff, hstudents]

/-- The id of one student ends in the beginning of a mark, and his name contains both marks; the
other one has no name and shares his id with an entry that was turned away.  Where that entry is
not made and nothing is announced, the listing and the students are the same. -/
theorem listing_tells_students_marks :
    let ann : Student := ⟨"1, Name:", ", Name: Ann, Age: 3", -2147483648⟩
    let bob : Student := ⟨"", "", 7⟩
    let r := (fresh ⟨"Age\n", true⟩ {}).after [.enter ann, .enter bob, .enter ⟨"", "Eve", 0⟩]
    let r' := (fresh ⟨"Age\n", false⟩ {}).after [.enter ann, .enter bob]
    ∃ bs students, r.Lists .entry bs ∧ r'.Lists .entry bs ∧
      readListing? "Age\n" bs = some students ∧ (students.map Student.id).Nodup ∧
      (∀ s, s ∈ students ↔ r.register.get? s.id = some s) ∧
      r.register.SameStudents r'.register := by
  intro ann bob r r'
  have hcalls : Call.entered [.enter ann, .enter bob, .enter ⟨"", "Eve", 0⟩] =
      [ann, bob, ⟨"", "Eve", 0⟩] := rfl
  have hcalls' : Call.entered [.enter ann, .enter bob] = [ann, bob] := rfl
  have hann : ann.Plain := ⟨by decide, by decide, by decide⟩
  have hbob : bob.Plain := ⟨by decide, by decide, by decide⟩
  have hplain : ∀ s ∈ Call.entered [.enter ann, .enter bob, .enter ⟨"", "Eve", 0⟩], s.Plain := by
    rw [hcalls]
    simp only [List.forall_mem_cons, List.not_mem_nil, false_implies, implies_true, and_true]
    exact ⟨hann, hbob, by decide, by decide, by decide⟩
  have hplain' : ∀ s ∈ Call.entered [.enter ann, .enter bob], s.Plain := by
    rw [hcalls']
    simp only [List.forall_mem_cons, List.not_mem_nil, false_implies, implies_true, and_true]
    exact ⟨hann, hbob⟩
  obtain ⟨hlisting, hsame⟩ := @listing_tells_students ⟨"Age\n", true⟩ {} _ hplain
  obtain ⟨bs, students, hbs, hread⟩ := hlisting .entry (listIn_fresh_ok _ _ _)
  obtain ⟨bs', hbs'⟩ := exists_lists (listIn_fresh_ok ⟨"Age\n", false⟩
    [.enter ann, .enter bob] .entry)
  have harranged : r.register.arranged .entry = [ann, bob] := by
    rw [after_register]
    decide +kernel
  have harranged' : r'.register.arranged .entry = [ann, bob] := by
    rw [after_register]
    decide +kernel
  have hsettings : r.settings = ⟨"Age\n", true⟩ := after_settings _ _
  have hsettings' : r'.settings = ⟨"Age\n", false⟩ := after_settings _ _
  have hlisted : listing ⟨"Age\n", true⟩ [ann, bob] = listing ⟨"Age\n", false⟩ [ann, bob] := rfl
  obtain rfl : bs = bs' := by
    rw [hbs.eq, hbs'.eq, harranged, harranged', hsettings, hsettings', hlisted]
  exact ⟨bs, students, hbs, hbs', hread.1, hread.2.1, hread.2.2,
    hsame _ _ _ rfl hplain' _ _ _ hbs hbs'⟩

end Registrar

end Enrollment
