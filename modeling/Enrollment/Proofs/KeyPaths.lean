import Enrollment.Proofs.Literal
import Enrollment.Proofs.Precedence

/-!
# Setting a value at the end of a path

On its way to the end of a path a value goes through tables and lists, which are
made where something else is in the way.  Both are changed alike: what has been
put under a key or at a place is found there, takes the place of what was put
there before, and leaves what stands under other keys or at other places
(`getElem?_putAt_self`, `putAt_putAt`, `getElem?_putAt_of_ne`).  Step by step the
same follows for paths (`get?_set`, `set_set`, `get?_set_of_parts`).  Every path
that begins with a name and counts from the start of lists is that of a key
(`Step.path_keyText`), so this is what becomes of a tree when a layer has an entry
under such a key (`set_path`).
-/

namespace Enrollment

theorem Entries.put_put {α : Type} (k : String) (a b : α) (es : Entries α) :
    put k a (put k b es) = put k a es := by
  induction es with
  | nil => simp only [put, if_true]
  | cons e es ih =>
    obtain ⟨j, c⟩ := e
    by_cases hj : j = k
    · simp only [put, if_pos hj, if_true]
    · simp only [put, if_neg hj, ih]

namespace Settings

namespace Step

open Toml (takeWhile_exact)

/-! ## Paths as they are written -/

/-- A step does not count from the end of a list. -/
def IsForward : Step → Prop
  | .key _ => True
  | .index i => 0 ≤ i

/-- A step can stand in a path as a key has it: a name of letters, digits, underscores and hyphens,
or an index of the size of a word that counts from the start. -/
def IsWritable : Step → Prop
  | .key name => name.toList ≠ [] ∧ name.toList.all isNameChar = true
  | .index i => 0 ≤ i ∧ Decimal.fitsWord i = true

instance (s : Step) : Decidable s.IsForward :=
  match s with
  | .key _ => inferInstanceAs (Decidable True)
  | .index i => inferInstanceAs (Decidable (0 ≤ i))

instance (s : Step) : Decidable s.IsWritable :=
  match s with
  | .key name => inferInstanceAs (Decidable (name.toList ≠ [] ∧ _))
  | .index i => inferInstanceAs (Decidable (0 ≤ i ∧ _))

/-- A further step as it is written. -/
def text : Step → List Char
  | .key name => '.' :: name.toList
  | .index i => '[' :: ((toString i).toList ++ [']'])

/-- A path that begins with a name as it is written. -/
def keyText (first : String) (rest : List Step) : String :=
  String.ofList (first.toList ++ rest.flatMap text)

/-- What is written after a name does not go on with it. -/
theorem head?_flatMap_text (rest : List Step) :
    ∀ c, (rest.flatMap text).head? = some c → isNameChar c = false := by
  rcases rest with _ | ⟨name | i, rest⟩
  · exact nofun
  all_goals
    rintro c ⟨⟩
    rfl

theorem name?_append {name : String} (h : IsWritable (.key name)) {r : List Char}
    (hr : ∀ c, r.head? = some c → isNameChar c = false) :
    name? (name.toList ++ r) = some (.key name, r) := by
  obtain ⟨htake, hdrop⟩ := takeWhile_exact (List.all_eq_true.1 h.2) hr
  rw [name?, htake, hdrop, if_neg h.1, String.ofList_toList]

/-- An index in brackets is read as it is written. -/
theorem further_run_index {i : Int} (h : IsWritable (.index i)) (r : List Char) :
    further.run ('[' :: ((toString i).toList ++ ']' :: r)) = some (.index i, r) := by
  obtain ⟨hi, hfits⟩ := h
  have hvalue : Decimal.value (Nat.toDigits 10 i.natAbs) = i.natAbs := Nat.ofDigitChars_ten_toDigits
  have hsigned : Decimal.signed false i.natAbs = i := Int.natAbs_of_nonneg hi
  have hall : ∀ c ∈ Nat.toDigits 10 i.natAbs, c.isDigit = true := fun c hc =>
    Nat.isDigit_of_mem_toDigits (by decide) (by decide) hc
  obtain ⟨htake, hdrop⟩ := takeWhile_exact (r := ']' :: r) hall fun c hc => by cases hc; rfl
  have hdigits : digits? false (Nat.toDigits 10 i.natAbs ++ ']' :: r) = some (i, ']' :: r) := by
    simp only [digits?, htake, hdrop, hvalue, hsigned, Decimal.areDigits_toDigits, hfits,
      Bool.and_self, if_true]
  rw [Decimal.toList_toString, if_neg (Int.not_lt.2 hi), List.nil_append]
  -- The first digit is neither a space nor a minus.
  obtain ⟨d, ds, hds⟩ := List.exists_cons_of_ne_nil (Nat.toDigits_ne_nil (b := 10) (n := i.natAbs))
  rw [hds] at hall hdigits ⊢
  have hd : d.isDigit = true := hall d List.mem_cons_self
  have hspace : isSpace d = false := by
    simp only [isSpace, Bool.or_eq_false_iff, decide_eq_false_iff_not]
    constructor
    all_goals
      rintro rfl
      cases hd
  have hnumber : number? (d :: (ds ++ ']' :: r)) = digits? false (d :: (ds ++ ']' :: r)) := by
    unfold number?
    split
    · next h =>
      obtain rfl : d = '-' := (List.cons.inj h).1
      cases hd
    · rfl
  have hskip : (d :: (ds ++ ']' :: r)).dropWhile isSpace = d :: (ds ++ ']' :: r) :=
    List.dropWhile_cons_of_neg (Bool.eq_false_iff.1 hspace)
  rw [List.cons_append] at hdigits ⊢
  simp only [further, hskip, hnumber, hdigits, Option.bind_some]
  rfl

theorem further_run_text {s : Step} (h : s.IsWritable) {r : List Char}
    (hr : ∀ c, r.head? = some c → isNameChar c = false) :
    further.run (s.text ++ r) = some (s, r) := by
  cases s with
  | key name => exact name?_append h hr
  | index i =>
    rw [text, List.cons_append, List.append_assoc]
    exact further_run_index h r

theorem many_flatMap_text {rest : List Step} (h : ∀ s ∈ rest, s.IsWritable) :
    further.many (rest.flatMap text) = (rest, []) := by
  induction rest with
  | nil => exact Parser.many_of_none rfl
  | cons s rest ih =>
    obtain ⟨hs, hrest⟩ := List.forall_mem_cons.1 h
    rw [List.flatMap_cons, Parser.many_of_some (further_run_text hs (head?_flatMap_text rest)),
      ih hrest]

theorem parse?_keyText {first : String} {rest : List Step}
    (h : ∀ s ∈ .key first :: rest, s.IsWritable) :
    parse? (keyText first rest).toList = some (.key first :: rest) := by
  obtain ⟨hfirst, hrest⟩ := List.forall_mem_cons.1 h
  have hname := name?_append hfirst (head?_flatMap_text rest)
  rw [keyText, String.toList_ofList, parse?, hname, Option.bind_some]
  simp only [many_flatMap_text hrest, if_true]

/-- A path that can be written is that of the key it is written as. -/
theorem path_keyText {first : String} {rest : List Step}
    (h : ∀ s ∈ .key first :: rest, s.IsWritable) :
    path (keyText first rest) = .key first :: rest := by
  rw [path, parse?_keyText h, Option.getD_some]

end Step

namespace Value

/-! ## Tables and lists -/

theorem get?_index_cons {i : Int} (hi : 0 ≤ i) (path : List Step) (v : Value) :
    get? (.index i :: path) v = ((asList v).2[i.toNat]?).bind (get? path) := by
  cases v with
  | leaf | table => rfl
  | list o ts => simp only [get?, if_pos hi, Option.bind_some, asList]

theorem entry_put_self (k : String) (v : Value) (es : Entries Value) :
    entry k (Entries.put k v es) = v := by
  rw [entry, Entries.get?_put_self, Option.getD_some]

/-- The value at a place of a list, nothing if it is missing. -/
def item (n : Nat) (items : List Value) : Value :=
  items[n]?.getD nothing

/-- Puts a value at a place of a list, with nothings before it where the list is too short. -/
def putAt (n : Nat) (v : Value) (items : List Value) : List Value :=
  (items ++ List.replicate (n + 1 - items.length) nothing).set n v

theorem set_index_cons {i : Int} (hi : 0 ≤ i) (path : List Step) (new old : Value) :
    set (.index i :: path) new old = .list (asList old).1
      (putAt i.toNat (set path new (item i.toNat (asList old).2)) (asList old).2) := by
  have hfill (items : List Value) (n : Nat) :
      (items ++ List.replicate (n + 1 - items.length) nothing).getD n nothing = item n items := by
    rw [item, List.getD_eq_getElem?_getD, List.getElem?_append]
    split
    · rfl
    · next h =>
      rw [List.getElem?_replicate, List.getElem?_eq_none (Nat.not_lt.1 h)]
      split <;> rfl
  rw [set]
  simp only [place, if_pos hi, hfill]
  rfl

theorem getElem?_putAt_self (n : Nat) (v : Value) (items : List Value) :
    (putAt n v items)[n]? = some v := by
  rw [putAt, List.getElem?_set_self]
  rw [List.length_append, List.length_replicate]
  omega

theorem getElem?_putAt_of_ne {m n : Nat} (hmn : m ≠ n) (v : Value) {items : List Value} {w : Value}
    (h : items[m]? = some w) : (putAt n v items)[m]? = some w := by
  rw [putAt, List.getElem?_set_ne hmn.symm, List.getElem?_append_left, h]
  exact (List.getElem?_eq_some_iff.1 h).1

theorem item_putAt_self (n : Nat) (v : Value) (items : List Value) :
    item n (putAt n v items) = v := by
  rw [item, getElem?_putAt_self, Option.getD_some]

theorem putAt_putAt (n : Nat) (v w : Value) (items : List Value) :
    putAt n v (putAt n w items) = putAt n v items := by
  have hlength : n + 1 - (putAt n w items).length = 0 := by
    rw [putAt, List.length_set, List.length_append, List.length_replicate]
    omega
  rw [putAt, hlength, List.replicate_zero, List.append_nil, putAt, List.set_set, putAt]

/-! ## Along a path -/

section

variable {path : List Step} (h : ∀ s ∈ path, s.IsForward) {x : Value} (hx : ¬ x.IsTable)

include h hx

/-- What has been set at the end of a path is found there. -/
theorem get?_set (old : Value) : get? path (set path x old) = some x := by
  induction path generalizing old with
  | nil => rw [set, get?, merge_of_not_isTable hx]
  | cons s path ih =>
    obtain ⟨hs, hpath⟩ := List.forall_mem_cons.1 h
    cases s with
    | key k => rw [set, get?_key_cons, asTable, Entries.get?_put_self, Option.bind_some, ih hpath]
    | index i =>
      rw [set_index_cons hs, get?_index_cons hs, asList, getElem?_putAt_self, Option.bind_some,
        ih hpath]

/-- It takes the place of what was set there before. -/
theorem set_set (y old : Value) : set path x (set path y old) = set path x old := by
  induction path generalizing old with
  | nil => simp only [set, merge_of_not_isTable hx]
  | cons s path ih =>
    obtain ⟨hs, hpath⟩ := List.forall_mem_cons.1 h
    cases s with
    | key k => simp only [set, asTable, entry_put_self, ih hpath, Entries.put_put]
    | index i => simp only [set_index_cons hs, asList, item_putAt_self, ih hpath, putAt_putAt]

end

/-- Two paths go together and then on to different keys of a table, or to different places of a list
counted from its start. -/
inductive Parts : List Step → List Step → Prop where
  | key {j k : String} (h : j ≠ k) (p q : List Step) : Parts (.key j :: p) (.key k :: q)
  | index {i j : Int} (hi : 0 ≤ i) (hj : 0 ≤ j) (h : i ≠ j) (p q : List Step) :
      Parts (.index i :: p) (.index j :: q)
  | same (s : Step) {p q : List Step} (h : Parts p q) : Parts (s :: p) (s :: q)

/-- What a path leads to stays there when something is set at the end of another that parts from it. -/
theorem get?_set_of_parts {path other : List Step} (hparts : Parts path other)
    (h : ∀ s ∈ path, s.IsForward) (x : Value) {old v : Value} (hv : get? other old = some v) :
    get? other (set path x old) = some v := by
  induction hparts generalizing old with
  | key hne p q =>
    rw [get?_key_cons] at hv
    rwa [set, get?_key_cons, asTable, Entries.get?_put_of_ne hne.symm]
  | @index i j hi hj hne p q =>
    rw [get?_index_cons hj] at hv
    obtain ⟨w, hw, hv⟩ := Option.bind_eq_some_iff.1 hv
    have hplace : j.toNat ≠ i.toNat := by omega
    rw [set_index_cons hi, get?_index_cons hj, asList, getElem?_putAt_of_ne hplace _ hw]
    exact hv
  | same s _ ih =>
    obtain ⟨hs, hpath⟩ := List.forall_mem_cons.1 h
    cases s with
    | key k =>
      rw [get?_key_cons] at hv
      obtain ⟨w, hw, hv⟩ := Option.bind_eq_some_iff.1 hv
      rw [set, get?_key_cons, asTable, Entries.get?_put_self, Option.bind_some, entry, hw,
        Option.getD_some, ih hpath hv]
    | index i =>
      rw [get?_index_cons hs] at hv
      obtain ⟨w, hw, hv⟩ := Option.bind_eq_some_iff.1 hv
      rw [set_index_cons hs, get?_index_cons hs, asList, getElem?_putAt_self, Option.bind_some,
        item, hw, Option.getD_some, ih hpath hv]

/-- A value that is no table is found at the end of the path at which it is set, whatever stood in the
way, and changes nothing when it is set there again.  What another path leads to that parts from this
one stays as it was.  This is what a layer does with an entry under a key that is read as the path,
and every path of names and of indices that a word holds is written as such a key. -/
theorem set_path (first : String) {rest : List Step} (h : ∀ s ∈ rest, s.IsForward) {x : Value}
    (hx : ¬ x.IsTable) (old : Value) :
    let path := Step.key first :: rest
    get? path (set path x old) = some x ∧
    set path x (set path x old) = set path x old ∧
    (∀ other v, Parts path other → get? other old = some v →
      get? other (set path x old) = some v) ∧
    (∀ k es, Step.path k = path → lay ((k, x) :: es) old = lay es (set path x old)) ∧
    ((∀ s ∈ path, s.IsWritable) → Step.path (Step.keyText first rest) = path) := by
  have hpath : ∀ s ∈ Step.key first :: rest, s.IsForward := List.forall_mem_cons.2 ⟨trivial, h⟩
  refine ⟨get?_set hpath hx old, set_set hpath hx x old,
    fun other v hparts hv => get?_set_of_parts hparts hpath x hv, fun k es hk => ?_,
    Step.path_keyText⟩
  rw [lay, hk]

/-- A switch set below the first item of a list, which is a number, and past the end of a list that is
not there, beside a text below the second item. -/
theorem set_path_replacing :
    let o : Origin := some "c.toml"
    let x : Value := .leaf (some "the environment") (.boolean true)
    let second : Value := .table o [("b", .leaf o (.text "B"))]
    let old : Value := .table none [("a", .list o [.leaf o (.integer 1), second])]
    let rest : List Step := [.index 0, .key "b", .index 2]
    let new := lay [("a[0].b[2]", x)] old
    new = .table none [("a", .list o [.table none [("b", .list none [nothing, nothing, x])], second])] ∧
      Step.keyText "a" rest = "a[0].b[2]" ∧
      get? (.key "a" :: rest) new = some x ∧
      get? [.key "a", .index 1, .key "b"] new = some (.leaf o (.text "B")) ∧
      lay [("a[0].b[2]", x)] new = new := by
  intro o x second old rest new
  have hrest : ∀ s ∈ rest, s.IsForward := by decide
  have hwritable : ∀ s ∈ Step.key "a" :: rest, s.IsWritable := by decide +kernel
  have hx : ¬ x.IsTable := id
  have hkey : Step.keyText "a" rest = "a[0].b[2]" := by decide +kernel
  obtain ⟨hget, hagain, hframe, hlay, hwritten⟩ := set_path "a" hrest hx old
  have hpath : Step.path "a[0].b[2]" = .key "a" :: rest := by rw [← hkey, hwritten hwritable]
  have hnew : new = set (.key "a" :: rest) x old := hlay _ [] hpath
  have hparts : Parts (.key "a" :: rest) [.key "a", .index 1, .key "b"] :=
    .same _ (.index (by decide) (by decide) (by decide) _ _)
  refine ⟨by decide +kernel, hkey, ?_, ?_, ?_⟩
  · rw [hnew, hget]
  · rw [hnew, hframe _ _ hparts rfl]
  · rw [hnew, lay, lay, hpath, hagain]

end Value

end Settings

end Enrollment
