import CommandGrammar.Suggestion.Basic
import Mathlib.Data.List.Induction
import Mathlib.Data.List.Sort
import Mathlib.Order.Lattice

/-!
# `Proofs.Normal` — sets of suggestions are in normal form

Collecting suggestions into a set goes through four steps: repetitions go, every entry is stated for the
common range, repetitions that this brought about go, and what is left is sorted. This module says once what
comes out, so that nobody opens `Suggestions.create` again:

* `Suggestions.Normal` — one range, no entry twice, in the order of keys, and one spelling for "nothing";
* `Suggestions.create_cases` — a set that was made is in normal form, its range is the smallest one that
  covers the given ones, and its entries are the given ones stated for that range;
* `Suggestions.Normal.create_list` — making a set from the entries of a set in normal form changes nothing,
  whatever the line;
* `Suggestions.create_of_anchored` — suggestions for one range need no line to be collected.

"Smallest range" is meant in the order by inclusion, in which `Range.hull` is the least upper bound.
-/

namespace CommandGrammar

/-! ## Lists without repetitions, and lists of results -/

section Lists

variable {α β ε : Type}

/-- An element at the end stays if it is new. -/
theorem eraseDups_concat [BEq α] [LawfulBEq α] (xs : List α) (x : α) :
    (xs ++ [x]).eraseDups = if x ∈ xs then xs.eraseDups else xs.eraseDups ++ [x] := by
  rw [List.eraseDups_append, List.removeAll]
  split
  · next hx =>
    have hfilter : [x].filter (fun y => !List.elem y xs) = [] := by simpa using hx
    rw [hfilter, List.eraseDups_nil, List.append_nil]
  · next hx =>
    have hfilter : [x].filter (fun y => !List.elem y xs) = [x] := by simpa using hx
    rw [hfilter]
    rfl

theorem nodup_eraseDups [BEq α] [LawfulBEq α] (xs : List α) : xs.eraseDups.Nodup := by
  induction xs using List.reverseRecOn with
  | nil => exact List.nodup_nil
  | append_singleton xs x ih =>
    rw [eraseDups_concat]
    split
    · exact ih
    · next hx =>
      have hnew : x ∉ xs.eraseDups := fun hmem => hx (List.mem_eraseDups.mp hmem)
      rw [← List.concat_eq_append]
      exact ih.concat hnew

theorem eraseDups_map [BEq α] [LawfulBEq α] [BEq β] [LawfulBEq β] {g : α → β} (hg : Function.Injective g)
    (xs : List α) : (xs.map g).eraseDups = xs.eraseDups.map g := by
  induction xs using List.reverseRecOn with
  | nil => rfl
  | append_singleton xs x ih =>
    rw [List.map_append, List.map_singleton, eraseDups_concat, eraseDups_concat, ih]
    simp only [List.mem_map_of_injective hg]
    split
    · rfl
    · rw [List.map_append, List.map_singleton]

theorem eraseDups_of_nodup [BEq α] [LawfulBEq α] {xs : List α} (h : xs.Nodup) : xs.eraseDups = xs := by
  induction xs with
  | nil => rfl
  | cons x xs ih =>
    obtain ⟨hx, hxs⟩ := List.nodup_cons.mp h
    have hfilter : xs.filter (fun y => !y == x) = xs := by
      rw [List.filter_eq_self]
      intro y hy
      have hne : y ≠ x := fun heq => hx (heq ▸ hy)
      simpa using hne
    rw [List.eraseDups_cons, hfilter, ih hxs]

/-- A computation in two steps succeeds when both do. -/
theorem bind_eq_ok_iff {x : Except ε α} {f : α → Except ε β} {y : β} :
    x.bind f = .ok y ↔ ∃ a, x = .ok a ∧ f a = .ok y := by
  cases x <;> simp [Except.bind]

variable {f : α → Except ε β}

theorem mapM_cons_eq_ok_iff {x : α} {xs : List α} {ys : List β} :
    (x :: xs).mapM f = .ok ys ↔ ∃ z, f x = .ok z ∧ ∃ zs, xs.mapM f = .ok zs ∧ z :: zs = ys := by
  rw [List.mapM_cons]
  show (f x).bind (fun z => (xs.mapM f).bind fun zs => .ok (z :: zs)) = .ok ys ↔ _
  simp only [bind_eq_ok_iff, Except.ok.injEq]

/-- A list of results holds what each element gave. -/
theorem mem_of_mapM_eq_ok {xs : List α} {ys : List β} (h : xs.mapM f = .ok ys) {y : β} :
    y ∈ ys ↔ ∃ x ∈ xs, f x = .ok y := by
  induction xs generalizing ys with
  | nil =>
    obtain rfl : [] = ys := Except.ok.inj h
    simp
  | cons x xs ih =>
    obtain ⟨z, hz, zs, hzs, rfl⟩ := mapM_cons_eq_ok_iff.mp h
    simp [ih hzs, hz, eq_comm]

/-- In a list of results that was made, no element failed. -/
theorem exists_of_mapM_eq_ok {xs : List α} {ys : List β} (h : xs.mapM f = .ok ys) {x : α} (hx : x ∈ xs) :
    ∃ y, f x = .ok y := by
  induction xs generalizing ys with
  | nil => cases hx
  | cons first xs ih =>
    obtain ⟨z, hz, zs, hzs, _⟩ := mapM_cons_eq_ok_iff.mp h
    rcases List.mem_cons.mp hx with rfl | hx
    · exact ⟨z, hz⟩
    · exact ih hzs hx

/-- Where no element fails, neither does the list. -/
theorem mapM_eq_ok_map {g : α → β} {xs : List α} (h : ∀ x ∈ xs, f x = .ok (g x)) :
    xs.mapM f = .ok (xs.map g) := by
  induction xs with
  | nil => rfl
  | cons x xs ih =>
    obtain ⟨hx, hxs⟩ := List.forall_mem_cons.mp h
    exact mapM_cons_eq_ok_iff.mpr ⟨g x, hx, xs.map g, ih hxs, rfl⟩

theorem exists_mapM_eq_ok {xs : List α} (h : ∀ x ∈ xs, ∃ y, f x = .ok y) :
    ∃ ys, xs.mapM f = .ok ys := by
  induction xs with
  | nil => exact ⟨[], rfl⟩
  | cons x xs ih =>
    obtain ⟨⟨y, hy⟩, hxs⟩ := List.forall_mem_cons.mp h
    obtain ⟨ys, hys⟩ := ih hxs
    exact ⟨y :: ys, mapM_cons_eq_ok_iff.mpr ⟨y, hy, ys, hys, rfl⟩⟩

/-- When each element gives what it gave before, changed by `g`, then so does the list. -/
theorem mapM_eq_map_mapM {g : β → β} {f' : α → Except ε β} {xs : List α} (h : ∀ x ∈ xs, f' x = (f x).map g) :
    xs.mapM f' = (xs.mapM f).map (List.map g) := by
  induction xs with
  | nil => rfl
  | cons x xs ih =>
    obtain ⟨hx, hxs⟩ := List.forall_mem_cons.mp h
    rw [List.mapM_cons, List.mapM_cons, hx, ih hxs]
    cases f x with
    | error e => rfl
    | ok y => cases xs.mapM f <;> rfl

end Lists

/-! ## Ranges by inclusion -/

namespace Range

/-- Ranges are ordered by inclusion, and the hull of two is the smallest range that includes both. -/
instance : SemilatticeSup Range where
  le a b := b.start ≤ a.start ∧ a.stop ≤ b.stop
  le_refl a := ⟨Nat.le_refl _, Nat.le_refl _⟩
  le_trans a b c hab hbc := ⟨Nat.le_trans hbc.1 hab.1, Nat.le_trans hab.2 hbc.2⟩
  le_antisymm a b hab hba := Range.ext (Nat.le_antisymm hba.1 hab.1) (Nat.le_antisymm hab.2 hba.2)
  sup := hull
  le_sup_left a b := ⟨Nat.min_le_left _ _, Nat.le_max_left _ _⟩
  le_sup_right a b := ⟨Nat.min_le_right _ _, Nat.le_max_right _ _⟩
  sup_le a b c hac hbc := ⟨Nat.le_min.mpr ⟨hac.1, hbc.1⟩, Nat.max_le.mpr ⟨hac.2, hbc.2⟩⟩

theorem hull_eq_sup (a b : Range) : hull a b = a ⊔ b := rfl

end Range

namespace Suggestions

variable {xs ys : List Suggestion} {range : Range}

theorem hull_eq_none_iff : hull xs = none ↔ xs = [] := by
  cases xs with
  | nil => simp [hull]
  | cons s rest => simp [hull]

theorem foldl_hull_le_iff {first bound : Range} :
    xs.foldl (fun range t => range.hull t.range) first ≤ bound
      ↔ first ≤ bound ∧ ∀ t ∈ xs, t.range ≤ bound := by
  induction xs generalizing first with
  | nil => simp
  | cons t xs ih => rw [List.foldl_cons, ih, Range.hull_eq_sup, sup_le_iff, and_assoc, List.forall_mem_cons]

/-- **The hull is the smallest range that covers all**: another range includes it exactly when it includes
    each of them. -/
theorem hull_le_iff (h : hull xs = some range) {bound : Range} :
    range ≤ bound ↔ ∀ s ∈ xs, s.range ≤ bound := by
  cases xs with
  | nil => cases h
  | cons s rest =>
    obtain rfl := Option.some.inj h
    rw [foldl_hull_le_iff, List.forall_mem_cons]

theorem le_hull (h : hull xs = some range) {s : Suggestion} (hs : s ∈ xs) : s.range ≤ range :=
  (hull_le_iff h).mp (le_refl range) s hs

/-- Suggestions with the same bounds have the same hull. -/
theorem hull_congr (hnil : xs = [] ↔ ys = [])
    (hbounds : ∀ bound : Range, (∀ s ∈ xs, s.range ≤ bound) ↔ ∀ s ∈ ys, s.range ≤ bound) :
    hull xs = hull ys := by
  cases hx : hull xs with
  | none => rw [hull_eq_none_iff.mpr (hnil.mp (hull_eq_none_iff.mp hx))]
  | some a =>
    cases hy : hull ys with
    | none =>
      rw [hull_eq_none_iff.mpr (hnil.mpr (hull_eq_none_iff.mp hy))] at hx
      cases hx
    | some b =>
      have hiff : ∀ bound, a ≤ bound ↔ b ≤ bound := fun bound => by
        rw [hull_le_iff hx, hull_le_iff hy]
        exact hbounds bound
      rw [le_antisymm ((hiff b).mpr le_rfl) ((hiff a).mp le_rfl)]

theorem hull_eraseDups (xs : List Suggestion) : hull xs.eraseDups = hull xs := by
  apply hull_congr
  · simp [List.eq_nil_iff_forall_not_mem]
  · simp

theorem hull_of_anchored (hne : xs ≠ []) (h : ∀ s ∈ xs, s.range = range) : hull xs = some range := by
  have hsingle : hull [⟨range, "", none⟩] = some range := rfl
  rw [← hsingle]
  apply hull_congr
  · simp [hne]
  · intro bound
    obtain ⟨s, hs⟩ := List.exists_mem_of_ne_nil xs hne
    constructor
    · intro hall t ht
      rw [List.mem_singleton.mp ht, ← h s hs]
      exact hall s hs
    · intro hall t ht
      rw [h t ht]
      exact hall _ List.mem_cons_self

/-! ## The order of offering -/

theorem place_eq_orderedInsert (s : Suggestion) (xs : List Suggestion) :
    place s xs = xs.orderedInsert (fun a b => a.key ≤ b.key) s := by
  induction xs with
  | nil => rfl
  | cons t xs ih => rw [place, List.orderedInsert_cons, ih]

/-- Sorting is insertion sort by keys. -/
theorem sort_eq_insertionSort (xs : List Suggestion) :
    sort xs = xs.insertionSort (fun a b => a.key ≤ b.key) := by
  induction xs with
  | nil => rfl
  | cons s xs ih => rw [sort, ih, place_eq_orderedInsert, List.insertionSort_cons]

instance : Std.Total fun a b : Suggestion => a.key ≤ b.key := ⟨fun a b => String.le_total a.key b.key⟩

instance : IsTrans Suggestion fun a b => a.key ≤ b.key := ⟨fun _ _ _ => String.le_trans⟩

theorem perm_sort (xs : List Suggestion) : (sort xs).Perm xs := by
  rw [sort_eq_insertionSort]
  exact List.perm_insertionSort _ xs

theorem pairwise_sort (xs : List Suggestion) : (sort xs).Pairwise fun a b => a.key ≤ b.key := by
  rw [sort_eq_insertionSort]
  exact List.pairwise_insertionSort _ xs

theorem sort_of_pairwise (h : xs.Pairwise fun a b => a.key ≤ b.key) : sort xs = xs := by
  rw [sort_eq_insertionSort]
  exact h.insertionSort_eq

/-- The order of offering sees nothing of suggestions but their keys. -/
theorem sort_map {g : Suggestion → Suggestion} (hg : ∀ s, (g s).key = s.key) (xs : List Suggestion) :
    sort (xs.map g) = (sort xs).map g := by
  rw [sort_eq_insertionSort, sort_eq_insertionSort]
  refine (List.map_insertionSort _ _ g xs fun a _ b _ => ?_).symm
  rw [hg, hg]

/-! ## Normal form -/

/-- **Normal form**: all entries replace the range of the set, none is there twice, they are in the order of
    their keys, and without any the range is the one of `empty`. -/
structure Normal (set : Suggestions) : Prop where
  /-- Every entry replaces the range of the set. -/
  anchored : ∀ s ∈ set.list, s.range = set.range
  /-- No entry is there twice. -/
  nodup : set.list.Nodup
  /-- The entries are in the order of their keys. -/
  sorted : set.list.Pairwise fun a b => a.key ≤ b.key
  /-- All sets without entries are the same. -/
  bare : set.list = [] → set.range = Range.point 0

theorem normal_empty : empty.Normal := ⟨by simp [empty], List.nodup_nil, .nil, fun _ => rfl⟩

/-- A set in normal form that offers nothing is `empty`. -/
theorem Normal.eq_empty {set : Suggestions} (h : set.Normal) (hnil : set.list = []) : set = empty := by
  obtain ⟨range, list⟩ := set
  obtain rfl : list = [] := hnil
  obtain rfl : range = Range.point 0 := h.bare rfl
  rfl

end Suggestions

namespace Suggestion

/-- What the line holds between two offsets, when they are in this order. -/
def margin (line : String) (start stop : Nat) : Except Fault String :=
  if start < stop then Fault.slice line start stop else .ok ""

/-- A suggestion stated for another range takes in the margins on both sides. -/
theorem expand_eq (s : Suggestion) (line : String) (range : Range) :
    s.expand line range =
      (margin line range.start s.range.start).bind fun left =>
        (margin line s.range.stop range.stop).bind fun right =>
          .ok ⟨range, left ++ s.text ++ right, s.tooltip⟩ := by
  unfold expand margin
  split <;> split <;> rfl

variable {s t : Suggestion} {line : String} {range : Range}

theorem expand_cases (h : s.expand line range = .ok t) :
    ∃ left right, margin line range.start s.range.start = .ok left ∧
      margin line s.range.stop range.stop = .ok right ∧
      t = ⟨range, left ++ s.text ++ right, s.tooltip⟩ := by
  rw [expand_eq] at h
  obtain ⟨left, hleft, h⟩ := bind_eq_ok_iff.mp h
  obtain ⟨right, hright, h⟩ := bind_eq_ok_iff.mp h
  exact ⟨left, right, hleft, hright, (Except.ok.inj h).symm⟩

theorem range_of_expand (h : s.expand line range = .ok t) : t.range = range := by
  obtain ⟨_, _, _, _, rfl⟩ := expand_cases h
  rfl

/-- Stated for its own range a suggestion stays as it is, and the line is not looked at. -/
theorem expand_self (s : Suggestion) (line : String) : s.expand line s.range = .ok s := by
  have hmargin : ∀ n, margin line n n = .ok "" := fun n => if_neg (Nat.lt_irrefl n)
  rw [expand_eq, hmargin, hmargin]
  show Except.ok (⟨s.range, "" ++ s.text ++ "", s.tooltip⟩ : Suggestion) = .ok s
  rw [String.empty_append, String.append_empty]

end Suggestion

namespace Suggestions

variable {line : String} {xs : List Suggestion} {set : Suggestions}

theorem create_nil (line : String) : create line [] = .ok empty := rfl

/-- A set of anything is what the suggestions are, once each, stated for their hull and sorted. -/
theorem create_of_hull {range : Range} (h : hull xs = some range) (line : String) :
    create line xs = (xs.eraseDups.mapM (Suggestion.expand · line range)).map fun expanded =>
      ⟨range, sort expanded.eraseDups⟩ := by
  unfold create
  dsimp only
  rw [hull_eraseDups, h]
  show (xs.eraseDups.mapM (Suggestion.expand · line range)).bind _ = _
  cases xs.eraseDups.mapM (Suggestion.expand · line range) <;> rfl

/-- **What a set holds that was made from suggestions.** Without any it is `empty`; otherwise its range is
    the hull of the given ranges, and its entries are the given suggestions stated for it. -/
theorem create_cases (h : create line xs = .ok set) :
    set.Normal ∧ (xs = [] ∧ set = empty ∨ hull xs = some set.range ∧
      ∀ s, s ∈ set.list ↔ ∃ t ∈ xs, t.expand line set.range = .ok s) := by
  cases hhull : hull xs with
  | none =>
    obtain rfl := hull_eq_none_iff.mp hhull
    obtain rfl := Except.ok.inj h
    exact ⟨normal_empty, .inl ⟨rfl, rfl⟩⟩
  | some range =>
    rw [create_of_hull hhull] at h
    cases hmap : xs.eraseDups.mapM (Suggestion.expand · line range) with
    | error e =>
      rw [hmap] at h
      cases h
    | ok expanded =>
      rw [hmap] at h
      obtain rfl := Except.ok.inj h
      have hmem : ∀ s, s ∈ sort expanded.eraseDups ↔ ∃ t ∈ xs, t.expand line range = .ok s := by
        intro s
        rw [(perm_sort _).mem_iff, List.mem_eraseDups, mem_of_mapM_eq_ok hmap]
        simp only [List.mem_eraseDups]
      -- Stating for the hull may make two suggestions equal; the second `eraseDups` is there for these.
      refine ⟨⟨?_, ?_, pairwise_sort _, ?_⟩, .inr ⟨rfl, hmem⟩⟩
      · intro s hs
        obtain ⟨t, _, hexpand⟩ := (hmem s).mp hs
        exact Suggestion.range_of_expand hexpand
      · exact (perm_sort _).nodup_iff.mpr (nodup_eraseDups expanded)
      · -- Something was given, so there is something to offer.
        intro hnil
        have hne : xs ≠ [] := by
          rintro rfl
          cases hhull
        obtain ⟨t, ht⟩ := List.exists_mem_of_ne_nil xs hne
        obtain ⟨s, hs⟩ := exists_of_mapM_eq_ok hmap (List.mem_eraseDups.mpr ht)
        have hin : s ∈ sort expanded.eraseDups := (hmem s).mpr ⟨t, ht, hs⟩
        rw [show sort expanded.eraseDups = [] from hnil] at hin
        cases hin

/-- A set can be made when every suggestion can be stated for the common range. -/
theorem exists_create (h : ∀ range, hull xs = some range → ∀ s ∈ xs, ∃ t, s.expand line range = .ok t) :
    ∃ set, create line xs = .ok set := by
  cases hhull : hull xs with
  | none =>
    obtain rfl := hull_eq_none_iff.mp hhull
    exact ⟨empty, create_nil line⟩
  | some range =>
    have heach : ∀ s ∈ xs.eraseDups, ∃ t, s.expand line range = .ok t :=
      fun s hs => h range hhull s (List.mem_eraseDups.mp hs)
    obtain ⟨expanded, hmap⟩ := exists_mapM_eq_ok heach
    rw [create_of_hull hhull, hmap]
    exact ⟨_, rfl⟩

/-- Suggestions for one and the same range are collected as they are, and the line is not looked at. -/
theorem create_of_anchored (hne : xs ≠ []) {range : Range} (h : ∀ s ∈ xs, s.range = range) (line : String) :
    create line xs = .ok ⟨range, sort xs.eraseDups⟩ := by
  have hself : ∀ s ∈ xs.eraseDups, s.expand line range = .ok (id s) := by
    intro s hs
    rw [← h s (List.mem_eraseDups.mp hs)]
    exact s.expand_self line
  rw [create_of_hull (hull_of_anchored hne h), mapM_eq_ok_map hself, List.map_id]
  show Except.ok (⟨range, sort xs.eraseDups.eraseDups⟩ : Suggestions) = _
  rw [eraseDups_of_nodup (nodup_eraseDups xs)]

/-- **Normal form is final.** Whatever the line, a set in normal form is the set of its own entries. -/
theorem Normal.create_list (h : set.Normal) (line : String) : create line set.list = .ok set := by
  by_cases hnil : set.list = []
  · rw [hnil, h.eq_empty hnil]
    exact create_nil line
  · rw [create_of_anchored hnil h.anchored, eraseDups_of_nodup h.nodup, sort_of_pairwise h.sorted]

/-- Someone made the set from suggestions. -/
def IsMade (set : Suggestions) : Prop := ∃ line xs, create line xs = .ok set

theorem isMade_empty : empty.IsMade := ⟨"", [], create_nil ""⟩

theorem IsMade.normal (h : set.IsMade) : set.Normal := by
  obtain ⟨line, xs, hcreate⟩ := h
  exact (create_cases hcreate).1

/-- Suggestions for one and the same range make a set of just these suggestions. -/
theorem exists_create_of_anchored {range : Range} (h : ∀ s ∈ xs, s.range = range) (line : String) :
    ∃ set, create line xs = .ok set ∧ ∀ s, s ∈ set.list ↔ s ∈ xs := by
  by_cases hne : xs = []
  · rw [hne]
    exact ⟨empty, create_nil line, fun _ => Iff.rfl⟩
  · refine ⟨_, create_of_anchored hne h line, fun s => ?_⟩
    rw [(perm_sort _).mem_iff, List.mem_eraseDups]

end Suggestions

end CommandGrammar
