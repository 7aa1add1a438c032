import CommandGrammar.Proofs.Normal

/-!
# `Proofs.Replacement` — what a suggestion makes of a line

A suggestion means the line that it leads to, together with what is said about it. Stating it for a wider
range must not change that, and collecting suggestions must not lose, invent or repeat a meaning:

* `Fault.before_append`, `Fault.after_append`, `Fault.slice_append` — slices of a line that is given in parts;
* `Text.IsBoundary.exists_between` — two places in a line take it apart into three;
* `Suggestion.exists_expand` — a suggestion can be stated for every wider range in the line, and keeps its
  meaning;
* `Suggestion.eq_of_meaning_eq` — for one range, different suggestions have different meanings;
* `Suggestions.exists_create_of_within` — hence the set of some suggestions has exactly their meanings.
-/

namespace CommandGrammar

/-! ## Lines in parts -/

namespace Text

theorem byteSize_eq_zero {text : String} : byteSize text = 0 ↔ text = "" := by
  rw [byteSize, size_eq_zero, String.toList_eq_nil_iff]

theorem IsBoundary.exists_append {line : String} {n : Nat} (h : IsBoundary line n) :
    ∃ a b : String, a ++ b = line ∧ byteSize a = n := by
  obtain ⟨before, rest, happ, hsize⟩ := h
  refine ⟨String.ofList before, String.ofList rest, ?_, by rw [byteSize_ofList, hsize]⟩
  rw [← String.ofList_append, happ, String.ofList_toList]

/-- Of two starts of a line the one with fewer bytes starts the other. -/
theorem exists_append_of_byteSize_le {a b c e : String} (h : a ++ b = c ++ e)
    (hle : byteSize a ≤ byteSize c) : ∃ m, a ++ m = c := by
  have hlist : a.toList ++ b.toList = c.toList ++ e.toList := by
    rw [← String.toList_append, h, String.toList_append]
  rcases List.append_eq_append_iff.mp hlist with ⟨m, hc, _⟩ | ⟨m, ha, _⟩
  · refine ⟨String.ofList m, ?_⟩
    rw [← String.ofList_toList (s := c), hc, String.ofList_append, String.ofList_toList]
  · -- Then `c` starts `a`, and as `a` has no more bytes, nothing comes between.
    have hsize : size a.toList = size c.toList + size m := by rw [ha, size_append]
    have hnil : m = [] := size_eq_zero.mp (by unfold byteSize at hle; omega)
    refine ⟨"", ?_⟩
    rw [String.append_empty, ← String.ofList_toList (s := a), ha, hnil, List.append_nil,
      String.ofList_toList]

/-- Two places in a line take it apart into three. -/
theorem IsBoundary.exists_between {line : String} {n k : Nat} (hn : IsBoundary line n)
    (hk : IsBoundary line k) (hle : n ≤ k) :
    ∃ a m b : String, a ++ m ++ b = line ∧ byteSize a = n ∧ byteSize (a ++ m) = k := by
  obtain ⟨a, rest, hline, rfl⟩ := hn.exists_append
  obtain ⟨c, b, hline', rfl⟩ := hk.exists_append
  obtain ⟨m, rfl⟩ := exists_append_of_byteSize_le (hline.trans hline'.symm) hle
  exact ⟨a, m, b, hline', rfl, rfl⟩

end Text

namespace Fault

theorem before_append (a b : String) : before (a ++ b) (Text.byteSize a) = .ok a := by
  have hcut : Text.cut (Text.byteSize a) (a ++ b).toList = some (a.toList, b.toList) := by
    rw [String.toList_append]
    exact Text.cut_size_append a.toList b.toList
  simp only [before, hcut, String.ofList_toList]

theorem after_append (a b : String) : after (a ++ b) (Text.byteSize a) = .ok b := by
  have hcut : Text.cut (Text.byteSize a) (a ++ b).toList = some (a.toList, b.toList) := by
    rw [String.toList_append]
    exact Text.cut_size_append a.toList b.toList
  simp only [after, hcut, String.ofList_toList]

theorem slice_append (a m b : String) :
    slice (a ++ m ++ b) (Text.byteSize a) (Text.byteSize (a ++ m)) = .ok m := by
  show (before (a ++ m ++ b) (Text.byteSize (a ++ m))).bind (after · (Text.byteSize a)) = .ok m
  rw [before_append]
  exact after_append a m

end Fault

/-! ## Ranges in a line -/

/-- The range lies in the line and cuts no character. -/
def Range.Within (range : Range) (line : String) : Prop :=
  Text.IsBoundary line range.start ∧ Text.IsBoundary line range.stop

instance (range : Range) (line : String) : Decidable (range.Within line) :=
  inferInstanceAs (Decidable (_ ∧ _))

namespace Range

variable {line : String}

theorem within_point_zero (line : String) : (Range.point 0).Within line :=
  ⟨⟨[], line.toList, rfl, rfl⟩, ⟨[], line.toList, rfl, rfl⟩⟩

theorem Within.hull {a b : Range} (ha : a.Within line) (hb : b.Within line) : (hull a b).Within line := by
  constructor
  · show Text.IsBoundary line (min a.start b.start)
    rcases Nat.le_total a.start b.start with h | h
    · rw [Nat.min_eq_left h]
      exact ha.1
    · rw [Nat.min_eq_right h]
      exact hb.1
  · show Text.IsBoundary line (max a.stop b.stop)
    rcases Nat.le_total a.stop b.stop with h | h
    · rw [Nat.max_eq_right h]
      exact hb.2
    · rw [Nat.max_eq_left h]
      exact ha.2

theorem within_foldl_hull {xs : List Suggestion} {first : Range} (hfirst : first.Within line)
    (h : ∀ s ∈ xs, s.range.Within line) :
    (xs.foldl (fun range t => range.hull t.range) first).Within line := by
  induction xs generalizing first with
  | nil => exact hfirst
  | cons s xs ih =>
    obtain ⟨hs, hxs⟩ := List.forall_mem_cons.mp h
    exact ih (hfirst.hull hs) hxs

theorem within_of_hull {xs : List Suggestion} {range : Range} (hhull : Suggestions.hull xs = some range)
    (h : ∀ s ∈ xs, s.range.Within line) : range.Within line := by
  cases xs with
  | nil => cases hhull
  | cons s rest =>
    obtain rfl := Option.some.inj hhull
    obtain ⟨hs, hrest⟩ := List.forall_mem_cons.mp h
    exact within_foldl_hull hs hrest

end Range

/-! ## Meanings -/

namespace Suggestion

/-- What a suggestion means for a line: the line that it leads to, and what is said about it. -/
def meaning (line : String) (s : Suggestion) : Except Fault String × Option String :=
  (s.apply line, s.tooltip)

variable {s t : Suggestion} {line : String} {range : Range}

theorem apply_of_sides {left right : String} (hleft : Fault.before line s.range.start = .ok left)
    (hright : Fault.after line s.range.stop = .ok right) : s.apply line = .ok (left ++ s.text ++ right) := by
  show (Fault.before _ _).bind (fun left => (Fault.after _ _).bind fun right => _) = _
  rw [hleft, hright]
  rfl

theorem margin_append (a m b : String) :
    margin (a ++ m ++ b) (Text.byteSize a) (Text.byteSize (a ++ m)) = .ok m := by
  unfold margin
  split
  · exact Fault.slice_append a m b
  · next hnot =>
    rw [Text.byteSize_append] at hnot
    rw [Text.byteSize_eq_zero.mp (show Text.byteSize m = 0 by omega)]

/-- A suggestion within the line can be applied. -/
theorem exists_apply (h : s.range.Within line) :
    ∃ left right, Fault.before line s.range.start = .ok left ∧ Fault.after line s.range.stop = .ok right ∧
      s.apply line = .ok (left ++ s.text ++ right) := by
  obtain ⟨left, _, hline, hstart⟩ := h.1.exists_append
  obtain ⟨front, right, hline', hstop⟩ := h.2.exists_append
  have hleft : Fault.before line s.range.start = .ok left := by
    rw [← hline, ← hstart]
    exact Fault.before_append left _
  have hright : Fault.after line s.range.stop = .ok right := by
    rw [← hline', ← hstop]
    exact Fault.after_append front right
  exact ⟨left, right, hleft, hright, apply_of_sides hleft hright⟩

/-- **Wider ranges keep the meaning.** A suggestion can be stated for every range of the line that includes
    its own, and then leads to the same line. -/
theorem exists_expand (hs : s.range.Within line) (hrange : range.Within line) (hle : s.range ≤ range) :
    ∃ t, s.expand line range = .ok t ∧ t.meaning line = s.meaning line := by
  -- In front of what is replaced the line reads `u v`, behind it `x y`; the wider range takes in `v` and `x`.
  obtain ⟨u, v, rest, hfront, hu, huv⟩ := hrange.1.exists_between hs.1 hle.1
  obtain ⟨c, x, y, hback, hc, hcx⟩ := hs.2.exists_between hrange.2 hle.2
  have hbefore : Fault.before line range.start = .ok u := by
    rw [← hfront, ← hu, String.append_assoc]
    exact Fault.before_append u _
  have hbefore' : Fault.before line s.range.start = .ok (u ++ v) := by
    rw [← hfront, ← huv]
    exact Fault.before_append (u ++ v) rest
  have hafter : Fault.after line range.stop = .ok y := by
    rw [← hback, ← hcx]
    exact Fault.after_append (c ++ x) y
  have hafter' : Fault.after line s.range.stop = .ok (x ++ y) := by
    rw [← hback, ← hc, String.append_assoc]
    exact Fault.after_append c _
  have hleft : margin line range.start s.range.start = .ok v := by
    rw [← hfront, ← hu, ← huv]
    exact margin_append u v rest
  have hright : margin line s.range.stop range.stop = .ok x := by
    rw [← hback, ← hc, ← hcx]
    exact margin_append c x y
  refine ⟨⟨range, v ++ s.text ++ x, s.tooltip⟩, ?_, ?_⟩
  · rw [expand_eq, hleft, hright]
    rfl
  · have hwide : apply ⟨range, v ++ s.text ++ x, s.tooltip⟩ line = .ok (u ++ (v ++ s.text ++ x) ++ y) :=
      apply_of_sides hbefore hafter
    rw [meaning, meaning, hwide, apply_of_sides hbefore' hafter']
    simp only [String.append_assoc]

/-- **For one range, meanings tell suggestions apart.** -/
theorem eq_of_meaning_eq (hs : s.range.Within line) (hrange : s.range = t.range)
    (h : s.meaning line = t.meaning line) : s = t := by
  obtain ⟨left, right, hleft, hright, happly⟩ := exists_apply hs
  have happly' : t.apply line = .ok (left ++ t.text ++ right) :=
    apply_of_sides (hrange ▸ hleft) (hrange ▸ hright)
  obtain ⟨hline, htooltip⟩ := Prod.mk.inj h
  -- Both lines keep the same sides, which cancel.
  rw [happly, happly'] at hline
  have htext : s.text = t.text := by
    have heq := Except.ok.inj hline
    rwa [String.append_left_inj, String.append_right_inj] at heq
  obtain ⟨range, text, tooltip⟩ := s
  obtain ⟨range', text', tooltip'⟩ := t
  obtain rfl : range = range' := hrange
  obtain rfl : text = text' := htext
  obtain rfl : tooltip = tooltip' := htooltip
  rfl

end Suggestion

/-! ## Sets -/

namespace Suggestions

variable {line : String} {xs : List Suggestion} {set : Suggestions}

/-- In a set over the line no meaning is there twice. -/
theorem Normal.nodup_meanings (h : set.Normal) (hwithin : set.range.Within line) :
    (set.list.map (Suggestion.meaning line)).Nodup := by
  refine List.Nodup.map_on ?_ h.nodup
  intro s hs t ht hmeaning
  have hrange : s.range = t.range := (h.anchored s hs).trans (h.anchored t ht).symm
  exact Suggestion.eq_of_meaning_eq (h.anchored s hs ▸ hwithin) hrange hmeaning

theorem within_of_create (hwithin : ∀ s ∈ xs, s.range.Within line) (h : create line xs = .ok set) :
    set.range.Within line := by
  rcases (create_cases h).2 with ⟨_, rfl⟩ | ⟨hhull, _⟩
  · exact Range.within_point_zero line
  · exact Range.within_of_hull hhull hwithin

/-- **A set has exactly the meanings of the suggestions that it was made from.** -/
theorem mem_meanings_of_create (hwithin : ∀ s ∈ xs, s.range.Within line) (h : create line xs = .ok set)
    (m : Except Fault String × Option String) :
    m ∈ set.list.map (Suggestion.meaning line) ↔ m ∈ xs.map (Suggestion.meaning line) := by
  rcases (create_cases h).2 with ⟨rfl, rfl⟩ | ⟨hhull, hmem⟩
  · exact Iff.rfl
  · have hrange := Range.within_of_hull hhull hwithin
    have hexpand : ∀ s ∈ xs, ∃ t, s.expand line set.range = .ok t ∧ t.meaning line = s.meaning line :=
      fun s hs => Suggestion.exists_expand (hwithin s hs) hrange (le_hull hhull hs)
    simp only [List.mem_map]
    constructor
    · rintro ⟨t, ht, rfl⟩
      obtain ⟨s, hs, hst⟩ := (hmem t).mp ht
      obtain ⟨t', hst', hmeaning⟩ := hexpand s hs
      rw [hst] at hst'
      obtain rfl := Except.ok.inj hst'
      exact ⟨s, hs, hmeaning.symm⟩
    · rintro ⟨s, hs, rfl⟩
      obtain ⟨t, hst, hmeaning⟩ := hexpand s hs
      exact ⟨t, (hmem t).mpr ⟨s, hs, hst⟩, hmeaning⟩

/-- Suggestions within the line can be collected. -/
theorem exists_create_of_within (hwithin : ∀ s ∈ xs, s.range.Within line) :
    ∃ set, create line xs = .ok set := by
  apply exists_create
  intro range hhull s hs
  obtain ⟨t, hst, _⟩ :=
    Suggestion.exists_expand (hwithin s hs) (Range.within_of_hull hhull hwithin) (le_hull hhull hs)
  exact ⟨t, hst⟩

/-- **Collecting neither loses nor invents nor repeats a meaning.** Suggestions within a line can be collected
    into a set; each of its entries can be applied; the lines that the entries lead to, with what is said about
    them, are those of the given suggestions; and no two entries lead to the same line with the same words. -/
theorem create_preserves_meanings (line : String) (xs : List Suggestion)
    (hwithin : ∀ s ∈ xs, s.range.Within line) :
    ∃ set, create line xs = .ok set ∧
      (∀ s ∈ set.list, ∃ text, s.apply line = .ok text) ∧
      (∀ m, m ∈ set.list.map (fun s => (s.apply line, s.tooltip))
        ↔ m ∈ xs.map (fun s => (s.apply line, s.tooltip))) ∧
      (set.list.map fun s => (s.apply line, s.tooltip)).Nodup := by
  obtain ⟨set, hset⟩ := exists_create_of_within hwithin
  have hnormal : set.Normal := (create_cases hset).1
  have hrange : set.range.Within line := within_of_create hwithin hset
  refine ⟨set, hset, ?_, mem_meanings_of_create hwithin hset, hnormal.nodup_meanings hrange⟩
  intro s hs
  have hs' : s.range.Within line := hnormal.anchored s hs ▸ hrange
  obtain ⟨_, _, _, _, happly⟩ := Suggestion.exists_apply hs'
  exact ⟨_, happly⟩

/-- Two ranges side by side and one that covers both: the first and the last suggestion lead to the same line,
    and the set offers it once. -/
theorem create_preserves_meanings_overlapping :
    let line := "né go"
    let xs : List Suggestion :=
      [⟨⟨0, 3, by decide⟩, "na", none⟩, ⟨⟨4, 6, by decide⟩, "gone", some "away"⟩,
        ⟨⟨0, 6, by decide⟩, "na go", none⟩]
    (∀ s ∈ xs, s.range.Within line) ∧
    ∃ set, create line xs = .ok set ∧ set.list.length = 2 ∧
      (.ok "na go", none) ∈ set.list.map (fun s => (s.apply line, s.tooltip)) ∧
      (.ok "né gone", some "away") ∈ set.list.map (fun s => (s.apply line, s.tooltip)) ∧
      (set.list.map fun s => (s.apply line, s.tooltip)).Nodup := by
  intro line xs
  have hwithin : ∀ s ∈ xs, s.range.Within line := by decide
  obtain ⟨set, hset, _, hmeanings, hnodup⟩ := create_preserves_meanings line xs hwithin
  have hlength : (create line xs).map (·.list.length) = .ok 2 := by decide +kernel
  rw [hset] at hlength
  refine ⟨hwithin, set, hset, Except.ok.inj hlength, (hmeanings _).mpr ?_, (hmeanings _).mpr ?_, hnodup⟩
  · decide
  · decide

end Suggestions

end CommandGrammar
