import Enrollment.Registrar

/-!
# What a sink has room for

A device has room for so many bytes in all, if there is an end to it.  Whatever
is written, and at whatever pace the device takes it, a sink ends up with as
much of the bytes as there is room for, and writing fails where that is not
all of them: `Sink.Wrote` says so of one piece (`put_wrote`) and of a text in
pieces (`putAll_wrote`).  `Published` adds the flush that follows a write.
-/

namespace Enrollment

/-! ## Room -/

namespace Device

/-- Whether there is room for so many bytes in all. -/
def admits (d : Device) (count : Nat) : Bool :=
  d.limit.all (count ≤ ·)

/-- A device that never fails, at whatever pace it works. -/
structure Reliable (d : Device) : Prop where
  unlimited : d.limit = none
  flushes : ∀ n, d.flushFails n = false

/-- As much of the bytes as there is room for. -/
def clip (d : Device) (bs : Bytes) : Bytes :=
  match d.limit with
  | none => bs
  | some limit => bs.take limit

variable {d : Device}

theorem clip_of_admits {bs : Bytes} (h : d.admits bs.length = true) : d.clip bs = bs := by
  unfold clip
  cases hl : d.limit with
  | none => rfl
  | some limit => exact List.take_of_length_le (by simpa [admits, hl] using h)

theorem Reliable.admits (h : d.Reliable) (count : Nat) : d.admits count = true := by
  rw [Device.admits, h.unlimited, Option.all_none]

theorem Reliable.clip (h : d.Reliable) (bs : Bytes) : d.clip bs = bs :=
  clip_of_admits (h.admits _)

theorem admits_zero (d : Device) : d.admits 0 = true := by
  unfold admits
  cases d.limit with
  | none => rfl
  | some limit => exact decide_eq_true (Nat.zero_le limit)

theorem admits_clip (d : Device) (bs : Bytes) : d.admits (d.clip bs).length = true := by
  unfold admits clip
  cases d.limit with
  | none => rfl
  | some limit =>
    rw [List.length_take]
    exact decide_eq_true (Nat.min_le_left limit bs.length)

theorem not_admits_of_full {limit n : Nat} (hl : d.limit = some limit) (hn : limit < n) :
    d.admits n = false := by
  simp only [admits, hl, Option.all_some, decide_eq_false_iff_not]
  omega

theorem not_admits_of_le {m n : Nat} (hmn : m ≤ n) (h : d.admits m = false) :
    d.admits n = false := by
  unfold admits at h ⊢
  cases hl : d.limit with
  | none => simp [hl] at h
  | some limit =>
    simp only [hl, Option.all_some, decide_eq_false_iff_not] at h ⊢
    omega

/-- What comes after refused bytes is lost. -/
theorem clip_append_of_not_admits {bs : Bytes} (h : d.admits bs.length = false) (more : Bytes) :
    d.clip (bs ++ more) = d.clip bs := by
  unfold admits at h
  unfold clip
  cases hl : d.limit with
  | none => simp [hl] at h
  | some limit =>
    simp only [hl, Option.all_some, decide_eq_false_iff_not] at h
    exact List.take_append_of_le_length (by omega)

/-- A full device takes nothing more. -/
theorem clip_append_of_full {limit : Nat} {bs : Bytes} (hl : d.limit = some limit)
    (hfull : limit ≤ bs.length) (h : d.admits bs.length = true) (more : Bytes) :
    d.clip (bs ++ more) = bs := by
  simp only [admits, hl, Option.all_some, decide_eq_true_eq] at h
  have hlen : bs.length = limit := Nat.le_antisymm h hfull
  simp only [clip, hl]
  exact List.take_left' hlen

/-- Bytes that a full device refused leave no gap: what comes later finds it full too. -/
theorem clip_clip_append (d : Device) (bs more : Bytes) :
    d.clip (d.clip bs ++ more) = d.clip (bs ++ more) := by
  unfold clip
  cases d.limit with
  | none => rfl
  | some limit =>
    rcases Nat.le_total bs.length limit with h | h
    · simp only [List.take_of_length_le h]
    · have hfull : (bs.take limit).length = limit := by simp [h]
      simp only [List.take_append, List.take_take, Nat.min_self, hfull, Nat.sub_self,
        List.take_zero, Nat.sub_eq_zero_of_le h]

/-- Once bytes have been refused, no more than nothing is admitted. -/
theorem admits_clip_append (d : Device) (bs : Bytes) {more : Bytes} (h : more ≠ []) :
    d.admits (d.clip bs ++ more).length = d.admits (bs ++ more).length := by
  unfold admits clip
  cases d.limit with
  | none => rfl
  | some limit =>
    have hpos : 0 < more.length := List.length_pos_iff.2 h
    simp only [Option.all_some, List.length_append, List.length_take]
    congr 1
    rw [eq_iff_iff]
    omega

end Device

/-! ## Writing -/

namespace Sink

/-- What writing bytes to a sink comes to. -/
structure Wrote (s : Sink) (bs : Bytes) (outcome : Except SinkFault Unit × Sink) : Prop where
  device : outcome.2.device = s.device
  marks : outcome.2.marks = s.marks
  written : outcome.2.written = s.device.clip (s.written ++ bs)
  result : outcome.1 = if s.device.admits (s.written ++ bs).length then .ok ()
    else .error (.write s.device.refusal.text)

theorem Wrote.nil {s : Sink} (h : s.device.admits s.written.length = true) :
    s.Wrote [] (.ok (), s) where
  device := rfl
  marks := rfl
  written := by rw [List.append_nil, Device.clip_of_admits h]
  result := by rw [List.append_nil, if_pos h]

theorem capacity_le (s : Sink) {offered : Nat} (h : 0 < offered) : s.capacity offered ≤ offered := by
  unfold capacity
  simp only
  split <;> omega

/-- One write call is interrupted, finds no room left, or takes some bytes for
which there is room. -/
theorem offer_cases (s : Sink) {bs : Bytes} (hbs : bs ≠ []) :
    s.offer bs = (.interrupted, { s with interrupted := s.interrupted + 1 }) ∨
      (s.offer bs = (.refused, s) ∧
        ∃ limit, s.device.limit = some limit ∧ limit ≤ s.written.length) ∨
      ∃ n served, s.device.admits (s.written.length + n) = true ∧ n ≤ bs.length ∧
        s.offer bs =
          (.taken n, { s with written := s.written ++ bs.take n, served, interrupted := 0 }) := by
  have hpos : 0 < bs.length := List.length_pos_iff.2 hbs
  unfold offer
  split
  · exact Or.inl rfl
  · split
    · next hfull =>
      refine Or.inr (Or.inl ⟨rfl, ?_⟩)
      unfold capacity at hfull
      cases hl : s.device.limit with
      | none =>
        simp only [hl] at hfull
        omega
      | some limit =>
        simp only [hl] at hfull
        exact ⟨limit, rfl, by omega⟩
    · next hroom =>
      refine Or.inr (Or.inr ⟨_, _, ?_, s.capacity_le hpos, rfl⟩)
      unfold capacity at hroom ⊢
      unfold Device.admits
      cases hl : s.device.limit with
      | none => rfl
      | some limit =>
        simp only [hl] at hroom
        simp only [Option.all_some, decide_eq_true_eq]
        omega

/-- A piece arrives as far as there is room for it, however the device splits it. -/
theorem put_wrote {s : Sink} (bs : Bytes) (h : s.device.admits s.written.length = true) :
    s.Wrote bs (s.put bs) := by
  fun_induction Sink.put s bs with
  | case1 s => exact .nil h
  | case2 s bs hbs t ht _ ih =>
    rcases s.offer_cases hbs with hs | ⟨hs, -⟩ | ⟨n, served, -, -, hs⟩ <;> rw [ht] at hs
    · cases hs
      exact ⟨(ih h).device, (ih h).marks, (ih h).written, (ih h).result⟩
    · cases hs
    · cases hs
  | case3 s bs hbs n t ht _ ih =>
    rcases s.offer_cases hbs with hs | ⟨hs, -⟩ | ⟨m, served, hm, hle, hs⟩ <;> rw [ht] at hs
    · cases hs
    · cases hs
    · cases hs
      have hroom : s.device.admits (s.written ++ bs.take n).length = true := by
        rwa [List.length_append, List.length_take, Nat.min_eq_left hle]
      have hw := ih hroom
      have hall : s.written ++ bs.take n ++ bs.drop n = s.written ++ bs := by
        rw [List.append_assoc, List.take_append_drop]
      exact ⟨hw.device, hw.marks, hw.written.trans (by rw [hall]), hw.result.trans (by rw [hall])⟩
  | case4 s bs hbs t ht =>
    rcases s.offer_cases hbs with hs | ⟨hs, limit, hl, hfull⟩ | ⟨n, served, -, -, hs⟩ <;>
      rw [ht] at hs
    · cases hs
    · cases hs
      have hmore : limit < (s.written ++ bs).length := by
        have hpos : 0 < bs.length := List.length_pos_iff.2 hbs
        rw [List.length_append]
        omega
      refine ⟨rfl, rfl, (Device.clip_append_of_full hl hfull h bs).symm, ?_⟩
      rw [Device.not_admits_of_full hl hmore]
      rfl
    · cases hs

/-- A text in pieces arrives as if it came in one. -/
theorem putAll_wrote {s : Sink} (pieces : List Bytes)
    (h : s.device.admits s.written.length = true) : s.Wrote pieces.flatten (s.putAll pieces) := by
  induction pieces generalizing s with
  | nil => exact .nil h
  | cons bs rest ih =>
    have hput := put_wrote bs h
    rw [List.flatten_cons]
    unfold putAll
    rcases hp : s.put bs with ⟨result, t⟩
    rw [hp] at hput
    obtain ⟨hdevice, hmarks, hwritten, hresult⟩ := hput
    simp only at hdevice hmarks hwritten hresult
    have ht : t.device.admits t.written.length = true := by
      rw [hdevice, hwritten]
      exact Device.admits_clip _ _
    obtain ⟨hdevice', hmarks', hwritten', hresult'⟩ := ih ht
    rw [hdevice, hwritten] at hwritten' hresult'
    split at hresult
    · next hfits =>
      subst hresult
      rw [Device.clip_of_admits hfits, List.append_assoc] at hwritten' hresult'
      exact ⟨hdevice'.trans hdevice, hmarks'.trans hmarks, hwritten', hresult'⟩
    · next hover =>
      subst hresult
      have hover : s.device.admits (s.written ++ bs).length = false := by simpa using hover
      have hlonger : s.device.admits (s.written ++ (bs ++ rest.flatten)).length = false := by
        refine Device.not_admits_of_le ?_ hover
        simp only [List.length_append]
        omega
      refine ⟨hdevice, hmarks, hwritten.trans ?_, ?_⟩
      · rw [← List.append_assoc, Device.clip_append_of_not_admits hover]
      · rw [hlonger]
        rfl

end Sink

/-! ## Publishing -/

theorem bytesOf_append (s t : String) : bytesOf (s ++ t) = bytesOf s ++ bytesOf t := by
  simp only [bytesOf, Utf8.encode, String.toList_append, List.flatMap_append]

theorem bytesOf_join (pieces : List String) :
    bytesOf (String.join pieces) = (pieces.map bytesOf).flatten := by
  induction pieces with
  | nil => rfl
  | cons piece rest ih =>
    rw [String.join_cons, bytesOf_append, ih, List.map_cons, List.flatten_cons]

theorem bytesOf_join_ne_nil {pieces : List String} {piece : String} (hmem : piece ∈ pieces)
    (hne : bytesOf piece ≠ []) : bytesOf (String.join pieces) ≠ [] := by
  rw [bytesOf_join, ne_eq, List.flatten_eq_nil_iff]
  exact fun hall => hne (hall _ (List.mem_map_of_mem hmem))

namespace Registrar

/-- What publishing a text comes to for a sink: it takes what there is room for,
and it is flushed once if that is all of the text.  When nothing fails, `a` is given back. -/
structure Published {α : Type} (s : Sink) (text : Bytes) (a : α)
    (outcome : Except SinkFault α × Registrar) : Prop where
  device : outcome.2.sink.device = s.device
  written : outcome.2.sink.written = s.device.clip (s.written ++ text)
  marks : outcome.2.sink.marks =
    if s.device.admits (s.written ++ text).length then s.marks ++ [(s.written ++ text).length]
    else s.marks
  result : outcome.1 =
    if s.device.admits (s.written ++ text).length then
      if s.device.flushFails (s.flushes + 1) then .error (.flush s.device.flushText) else .ok a
    else .error (.write s.device.refusal.text)

theorem Published.map {α β : Type} {s : Sink} {text : Bytes} {a : α}
    {outcome : Except SinkFault α × Registrar} (h : Published s text a outcome) (f : α → β) :
    Published s text (f a) (outcome.1.map f, outcome.2) where
  device := h.device
  written := h.written
  marks := h.marks
  result := by
    rw [h.result]
    split
    · split <;> rfl
    · rfl

theorem publish_published {r : Registrar} (pieces : List String)
    (h : r.sink.device.admits r.sink.written.length = true) :
    Published r.sink (bytesOf (String.join pieces)) () (r.publish pieces) := by
  have hput := Sink.putAll_wrote (pieces.map bytesOf) h
  rw [← bytesOf_join] at hput
  unfold publish
  rcases hp : r.sink.putAll (pieces.map bytesOf) with ⟨result, t⟩
  rw [hp] at hput
  obtain ⟨hdevice, hmarks, hwritten, hresult⟩ := hput
  simp only at hdevice hmarks hwritten hresult
  split at hresult
  · next hfits =>
    subst hresult
    have hflushes : t.flushes = r.sink.flushes := congrArg List.length hmarks
    refine ⟨hdevice, hwritten, ?_, ?_⟩
    · rw [if_pos hfits]
      simp only [Sink.flush]
      rw [hmarks, hwritten, Device.clip_of_admits hfits]
    · rw [if_pos hfits]
      simp only [Sink.flush]
      rw [hdevice, hflushes]
  · next hover =>
    subst hresult
    refine ⟨hdevice, hwritten, ?_, ?_⟩
    · rw [if_neg hover, hmarks]
    · rw [if_neg hover]

/-- Publishing changes nothing but the sink, whatever the sink does. -/
theorem publish_eq (r : Registrar) (pieces : List String) :
    (r.publish pieces).2 = { r with sink := (r.publish pieces).2.sink } := by
  unfold publish
  rcases r.sink.putAll (pieces.map bytesOf) with ⟨_ | _, t⟩ <;> rfl

end Registrar

end Enrollment
