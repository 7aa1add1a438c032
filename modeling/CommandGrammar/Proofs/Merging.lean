import CommandGrammar.Proofs.Replacement

/-!
# `Proofs.Merging` — sets can be merged in any order and in any groups

Children of a node offer their sets independently of each other, so it must not matter in which order the sets
arrive or whether some of them were merged before. Merging looks at a set only through two things: what its
entries mean for the line, and which ranges include all of theirs. `Suggestions.SameOffer` compares lists of
suggestions by these two:

* `Suggestions.SameOffer.create` — lists that offer the same make sets that are alike;
* `Suggestions.sameOffer_create` — a set offers the same as the suggestions that it was made from, so it may
  stand in for them (`SameOffer.append`);
* `Suggestions.merge_eq_create` — merging is collecting all entries anew; that this is also true of a single
  set, which is passed on unseen, is where normal form comes in.

`Suggestions.Alike` leaves open only the order of entries with the same key: sorting keeps the order in which
they came.
-/

namespace CommandGrammar.Suggestions

variable {line : String} {xs ys zs xs' ys' : List Suggestion} {sets : List Suggestions}

/-! ## Lists that offer the same -/

/-- The two lists offer the same for a line: the same meanings, within the same bounds. -/
structure SameOffer (line : String) (xs ys : List Suggestion) : Prop where
  /-- What one list offers the other one offers. -/
  meanings : ∀ m, m ∈ xs.map (Suggestion.meaning line) ↔ m ∈ ys.map (Suggestion.meaning line)
  /-- A range that includes all ranges of one list includes all ranges of the other. -/
  bounds : ∀ bound : Range, (∀ s ∈ xs, s.range ≤ bound) ↔ ∀ s ∈ ys, s.range ≤ bound

namespace SameOffer

theorem trans (h : SameOffer line xs ys) (h' : SameOffer line ys zs) : SameOffer line xs zs :=
  ⟨fun m => (h.meanings m).trans (h'.meanings m), fun bound => (h.bounds bound).trans (h'.bounds bound)⟩

theorem of_perm (h : xs.Perm ys) : SameOffer line xs ys :=
  ⟨fun _ => (h.map _).mem_iff, fun _ => forall_congr' fun _ => by rw [h.mem_iff]⟩

/-- A part of a list may be replaced by what offers the same. -/
theorem append (h : SameOffer line xs xs') (h' : SameOffer line ys ys') :
    SameOffer line (xs ++ ys) (xs' ++ ys') where
  meanings m := by
    rw [List.map_append, List.map_append, List.mem_append, List.mem_append, h.meanings, h'.meanings]
  bounds bound := by
    simp only [List.forall_mem_append]
    rw [h.bounds, h'.bounds]

theorem eq_nil_iff (h : SameOffer line xs ys) : xs = [] ↔ ys = [] := by
  rw [← List.map_eq_nil_iff (f := Suggestion.meaning line),
    ← List.map_eq_nil_iff (f := Suggestion.meaning line), List.eq_nil_iff_forall_not_mem,
    List.eq_nil_iff_forall_not_mem]
  exact forall_congr' fun m => not_congr (h.meanings m)

theorem hull_eq (h : SameOffer line xs ys) : hull xs = hull ys := hull_congr h.eq_nil_iff h.bounds

end SameOffer

/-- **A set stands for the suggestions that it was made from.** -/
theorem sameOffer_create {set : Suggestions} (hwithin : ∀ s ∈ xs, s.range.Within line)
    (h : create line xs = .ok set) : SameOffer line set.list xs := by
  have hmeanings := mem_meanings_of_create hwithin h
  refine ⟨hmeanings, fun bound => ?_⟩
  obtain ⟨hnormal, ⟨rfl, rfl⟩ | ⟨hhull, _⟩⟩ := create_cases h
  · exact Iff.rfl
  · rw [← hull_le_iff hhull]
    constructor
    · -- Some suggestion was given, so there is an entry, and it has the range of the set.
      intro hall
      have hne : set.list ≠ [] := by
        intro hnil
        have hxs : xs = [] := by simpa [hnil, List.eq_nil_iff_forall_not_mem] using hmeanings
        rw [hull_eq_none_iff.mpr hxs] at hhull
        cases hhull
      obtain ⟨s, hs⟩ := List.exists_mem_of_ne_nil _ hne
      rw [← hnormal.anchored s hs]
      exact hall s hs
    · intro hle s hs
      rw [hnormal.anchored s hs]
      exact hle

/-! ## Sets that are alike -/

/-- Two sets are alike when they have the same range and the same entries, listed with the same sequence of
    keys: only entries with equal keys may stand in a different order. -/
structure Alike (a b : Suggestions) : Prop where
  /-- They replace the same range. -/
  range : a.range = b.range
  /-- They have the same entries. -/
  entries : a.list.Perm b.list
  /-- The keys come in the same order. -/
  keys : a.list.map Suggestion.key = b.list.map Suggestion.key

/-- Sets in normal form are alike when they have the same range and the same entries. -/
theorem Normal.alike {a b : Suggestions} (ha : a.Normal) (hb : b.Normal) (hrange : a.range = b.range)
    (hmem : ∀ s, s ∈ a.list ↔ s ∈ b.list) : a.Alike b := by
  have hperm : a.list.Perm b.list := (List.perm_ext_iff_of_nodup ha.nodup hb.nodup).mpr hmem
  refine ⟨hrange, hperm, ?_⟩
  -- Two sorted lists of the same keys are equal.
  have hsorted : ∀ {set : Suggestions}, set.Normal → (set.list.map Suggestion.key).Pairwise (· ≤ ·) :=
    fun h => List.pairwise_map.mpr h.sorted
  exact List.Perm.eq_of_pairwise (fun _ _ _ _ => String.le_antisymm) (hsorted ha) (hsorted hb)
    (hperm.map Suggestion.key)

/-- In a set over the line an entry can be told from its meaning. -/
theorem Normal.mem_iff_meaning {set : Suggestions} (h : set.Normal) (hwithin : set.range.Within line)
    {s : Suggestion} (hs : s.range = set.range) :
    s ∈ set.list ↔ s.meaning line ∈ set.list.map (Suggestion.meaning line) := by
  constructor
  · exact fun hmem => List.mem_map_of_mem hmem
  · intro hmem
    obtain ⟨t, ht, hmeaning⟩ := List.mem_map.mp hmem
    have hrange : s.range = t.range := hs.trans (h.anchored t ht).symm
    rwa [Suggestion.eq_of_meaning_eq (hs ▸ hwithin) hrange hmeaning.symm]

/-- **Lists that offer the same make sets that are alike.** -/
theorem SameOffer.create (h : SameOffer line xs ys) (hx : ∀ s ∈ xs, s.range.Within line)
    (hy : ∀ s ∈ ys, s.range.Within line) {a b : Suggestions} (ha : create line xs = .ok a)
    (hb : create line ys = .ok b) : a.Alike b := by
  obtain ⟨hanormal, hacases⟩ := create_cases ha
  obtain ⟨hbnormal, hbcases⟩ := create_cases hb
  have hrange : a.range = b.range := by
    rcases hacases with ⟨hxnil, rfl⟩ | ⟨hxhull, _⟩
    · rcases hbcases with ⟨_, rfl⟩ | ⟨hyhull, _⟩
      · rfl
      · rw [hull_eq_none_iff.mpr (h.eq_nil_iff.mp hxnil)] at hyhull
        cases hyhull
    · rcases hbcases with ⟨hynil, _⟩ | ⟨hyhull, _⟩
      · rw [hull_eq_none_iff.mpr (h.eq_nil_iff.mpr hynil)] at hxhull
        cases hxhull
      · rw [h.hull_eq, hyhull] at hxhull
        exact (Option.some.inj hxhull).symm
  have hawithin : a.range.Within line := within_of_create hx ha
  -- Entries of both sets have the same range, so the meanings decide.
  have hmem : ∀ s, s.range = a.range → (s ∈ a.list ↔ s ∈ b.list) := by
    intro s hs
    rw [hanormal.mem_iff_meaning hawithin hs, hbnormal.mem_iff_meaning (hrange ▸ hawithin) (hs.trans hrange),
      mem_meanings_of_create hx ha, mem_meanings_of_create hy hb, h.meanings]
  refine hanormal.alike hbnormal hrange fun s => ⟨fun hs => ?_, fun hs => ?_⟩
  · exact (hmem s (hanormal.anchored s hs)).mp hs
  · exact (hmem s ((hbnormal.anchored s hs).trans hrange.symm)).mpr hs

/-! ## Merging -/

/-- **Merging is collecting all entries anew.** -/
theorem merge_eq_create (h : ∀ set ∈ sets, set.Normal) (line : String) :
    merge line sets = create line (sets.flatMap list) := by
  match sets with
  | [] => rfl
  | [set] =>
    rw [List.flatMap_singleton, (h set List.mem_cons_self).create_list]
    rfl
  | _ :: _ :: _ => rfl

/-- Merging sets that were made makes nothing else. -/
theorem isMade_merge (h : ∀ set ∈ sets, set.IsMade) {merged : Suggestions}
    (hmerge : merge line sets = .ok merged) : merged.IsMade := by
  rw [merge_eq_create fun set hset => (h set hset).normal] at hmerge
  exact ⟨line, _, hmerge⟩

/-- Sets for one and the same range are merged as they are. -/
theorem exists_merge_of_anchored {range : Range} (h : ∀ set ∈ sets, ∀ s ∈ set.list, s.range = range)
    (line : String) :
    ∃ merged, merge line sets = .ok merged ∧ ∀ s, s ∈ merged.list ↔ ∃ set ∈ sets, s ∈ set.list := by
  match sets with
  | [] => exact ⟨empty, rfl, by simp [empty]⟩
  | [set] => exact ⟨set, rfl, by simp⟩
  | first :: second :: rest =>
    have hanchored : ∀ s ∈ (first :: second :: rest).flatMap list, s.range = range :=
      List.forall_mem_flatMap.mpr h
    obtain ⟨merged, hmerged, hmem⟩ := exists_create_of_anchored hanchored line
    exact ⟨merged, hmerged, fun s => by rw [hmem, List.mem_flatMap]⟩

/-- The set was made from suggestions, and its range lies in the line. -/
def Fits (set : Suggestions) (line : String) : Prop := set.IsMade ∧ set.range.Within line

theorem within_flatMap (h : ∀ set ∈ sets, set.Fits line) : ∀ s ∈ sets.flatMap list, s.range.Within line := by
  intro s hs
  obtain ⟨set, hset, hs⟩ := List.mem_flatMap.mp hs
  rw [(h set hset).1.normal.anchored s hs]
  exact (h set hset).2

/-- Sets that fit a line can be merged, and the result is what their entries make. -/
theorem exists_merge (h : ∀ set ∈ sets, set.Fits line) :
    ∃ merged, merge line sets = .ok merged ∧ create line (sets.flatMap list) = .ok merged ∧
      merged.Fits line := by
  obtain ⟨merged, hcreate⟩ := exists_create_of_within (within_flatMap h)
  have hmerge : merge line sets = .ok merged := by
    rw [merge_eq_create fun set hset => (h set hset).1.normal]
    exact hcreate
  have hmade : merged.IsMade := isMade_merge (fun set hset => (h set hset).1) hmerge
  exact ⟨merged, hmerge, hcreate, hmade, within_of_create (within_flatMap h) hcreate⟩

/-- Sets whose entries offer the same are merged into sets that are alike. -/
theorem exists_merge_alike {whole : Suggestions} {sets' : List Suggestions} (h : ∀ set ∈ sets, set.Fits line)
    (h' : ∀ set ∈ sets', set.Fits line) (hwhole : merge line sets = .ok whole)
    (hoffer : SameOffer line (sets'.flatMap list) (sets.flatMap list)) :
    ∃ other, merge line sets' = .ok other ∧ other.Alike whole := by
  obtain ⟨other, hother, hcreate', _⟩ := exists_merge h'
  rw [merge_eq_create fun set hset => (h set hset).1.normal] at hwhole
  exact ⟨other, hother, hoffer.create (within_flatMap h') (within_flatMap h) hcreate' hwhole⟩

theorem flatMap_list_of_isEmpty (h : ∀ set ∈ sets, set.isEmpty) : sets.flatMap list = [] := by
  rw [List.flatMap_eq_nil_iff]
  exact fun set hset => List.isEmpty_iff.mp (h set hset)

/-- **Order and grouping do not matter for merging.** Sets that fit a line can be merged. The result is alike
    when the sets come in another order and sets that offer nothing are left out, and when any of them are
    merged first and the result is merged with the others; what was merged first fits the line again. And a set
    that is merged alone, or with sets that offer nothing, stays as it is. -/
theorem merge_any_order_and_grouping (line : String) (sets : List Suggestions)
    (hfits : ∀ set ∈ sets, set.IsMade ∧ set.range.Within line) :
    ∃ whole, merge line sets = .ok whole ∧
      (∀ dropped kept, (dropped ++ kept).Perm sets → (∀ set ∈ dropped, set.isEmpty) →
        ∃ other, merge line kept = .ok other ∧ other.Alike whole) ∧
      (∀ group rest, (group ++ rest).Perm sets →
        ∃ merged, merge line group = .ok merged ∧ merged.IsMade ∧ merged.range.Within line ∧
          ∀ sets', sets'.Perm (merged :: rest) →
            ∃ other, merge line sets' = .ok other ∧ other.Alike whole) ∧
      (∀ before set after, sets = before ++ set :: after → (∀ other ∈ before ++ after, other.isEmpty) →
        whole = set) := by
  obtain ⟨whole, hwhole, _⟩ := exists_merge hfits
  refine ⟨whole, hwhole, ?_, ?_, ?_⟩
  · intro dropped kept hperm hempty
    have hkept : ∀ set ∈ kept, set.Fits line :=
      fun set hset => hfits set (hperm.mem_iff.mp (List.mem_append_right _ hset))
    have hflat : (dropped ++ kept).flatMap list = kept.flatMap list := by
      rw [List.flatMap_append, flatMap_list_of_isEmpty hempty, List.nil_append]
    exact exists_merge_alike hfits hkept hwhole (.of_perm (hflat ▸ hperm.flatMap_right list))
  · intro group rest hperm
    have hgroup : ∀ set ∈ group, set.Fits line :=
      fun set hset => hfits set (hperm.mem_iff.mp (List.mem_append_left _ hset))
    have hrest : ∀ set ∈ rest, set.Fits line :=
      fun set hset => hfits set (hperm.mem_iff.mp (List.mem_append_right _ hset))
    obtain ⟨merged, hmerged, hcreate, hmergedFits⟩ := exists_merge hgroup
    refine ⟨merged, hmerged, hmergedFits.1, hmergedFits.2, fun sets' hsets' => ?_⟩
    have hfits' : ∀ set ∈ sets', set.Fits line := fun set hset => by
      rcases List.mem_cons.mp (hsets'.mem_iff.mp hset) with rfl | hset
      · exact hmergedFits
      · exact hrest set hset
    apply exists_merge_alike hfits hfits' hwhole
    -- The merged set stands for its group.
    have hstands : SameOffer line (merged.list ++ rest.flatMap list)
        (group.flatMap list ++ rest.flatMap list) :=
      (sameOffer_create (within_flatMap hgroup) hcreate).append (.of_perm (.refl _))
    rw [← List.flatMap_append] at hstands
    exact (SameOffer.of_perm (hsets'.flatMap_right list)).trans
      (hstands.trans (.of_perm (hperm.flatMap_right list)))
  · intro before set after hsets hempty
    obtain ⟨hbefore, hafter⟩ := List.forall_mem_append.mp hempty
    have hflat : sets.flatMap list = set.list := by
      rw [hsets, List.flatMap_append, List.flatMap_cons, flatMap_list_of_isEmpty hbefore,
        flatMap_list_of_isEmpty hafter, List.nil_append, List.append_nil]
    have hset : set ∈ sets := by
      rw [hsets]
      exact List.mem_append_right _ List.mem_cons_self
    rw [merge_eq_create fun set hset => (hfits set hset).1.normal, hflat,
      (hfits set hset).1.normal.create_list] at hwhole
    exact (Except.ok.inj hwhole).symm

/-- Two sets whose entries differ only in case: merged the other way round, they change places. -/
theorem merge_any_order_and_grouping_case :
    let line := "go"
    let capital : Suggestions := ⟨⟨0, 2, by decide⟩, [⟨⟨0, 2, by decide⟩, "Gone", none⟩]⟩
    let small : Suggestions := ⟨⟨1, 2, by decide⟩, [⟨⟨1, 2, by decide⟩, "one", none⟩]⟩
    (∀ set ∈ [capital, small], set.IsMade ∧ set.range.Within line) ∧
    ∃ whole other, merge line [capital, small] = .ok whole ∧ merge line [small, capital] = .ok other ∧
      whole.list.map Suggestion.text = ["Gone", "gone"] ∧ other.list.map Suggestion.text = ["gone", "Gone"] ∧
      other.Alike whole := by
  intro line capital small
  have hfits : ∀ set ∈ [capital, small], set.IsMade ∧ set.range.Within line := by
    intro set hset
    simp only [List.mem_cons, List.not_mem_nil, or_false] at hset
    rcases hset with rfl | rfl
    · exact ⟨⟨line, capital.list, by decide +kernel⟩, by decide⟩
    · exact ⟨⟨line, small.list, by decide +kernel⟩, by decide⟩
  obtain ⟨whole, hwhole, horder, _⟩ := merge_any_order_and_grouping line [capital, small] hfits
  obtain ⟨other, hother, halike⟩ := horder [] [small, capital] (.swap _ _ _) (by simp)
  have htexts : (merge line [capital, small]).map (·.list.map Suggestion.text) = .ok ["Gone", "gone"] := by
    decide +kernel
  have htexts' : (merge line [small, capital]).map (·.list.map Suggestion.text) = .ok ["gone", "Gone"] := by
    decide +kernel
  rw [hwhole] at htexts
  rw [hother] at htexts'
  exact ⟨hfits, whole, other, hwhole, hother, Except.ok.inj htexts, Except.ok.inj htexts', halike⟩

end CommandGrammar.Suggestions
