import OmniStreaming.Diffusion.ParallelState

/-!
# Orthogonal rank groups partition the world

For every list of positive sizes and every mask, `generate_masked_orthogonal_rank_groups` cuts the
world into groups of one size. Two ranks are in one group iff they have the same digits where the
mask is false, and a group of the opposite mask takes exactly one rank from each of them.

The sizes and the mask together are the shape of a mixed radix number with digits of two kinds. A
group is the set of numbers with a given part of the kind `false`, and a group of the opposite mask
that of the numbers with a given part of the kind `true`; the two parts determine the number.
-/

namespace OmniStreaming

open List MixedRadix

/-! ## Groups of one mask -/

/-- The groups of a mask partition the ranks into groups of one size, whose ranks agree in the
coordinates that the mask leaves out. -/
structure PartitionsWorld (sizes : List ℕ) (mask : List Bool) (groups : List (List ℕ)) : Prop where
  partition : groups.flatten.Perm (range sizes.prod)
  length_eq : ∀ g ∈ groups, g.length = (masked sizes mask true).prod
  same_group : ∀ x < sizes.prod, ∀ y < sizes.prod, (∃ g ∈ groups, x ∈ g ∧ y ∈ g) ↔
    ∀ i : ℕ, mask[i]? = some false → (digits sizes x)[i]? = (digits sizes y)[i]?

variable {shape : List (ℕ × Bool)}

section

variable (h : Positive shape)
include h

/-- The members of a group. -/
lemma mem_rankGroup_iff {g y : ℕ} (hg : g < size false shape) :
    y ∈ rankGroup shape g ↔ y < (shape.map Prod.fst).prod ∧ part false shape y = g := by
  have hpart : part false shape (join shape fun _ => g) = g := part_join h hg
  conv_lhs => rw [← hpart]
  rw [mem_rankGroup h, hpart]

lemma nodup_rankGroup (g : ℕ) : (rankGroup shape g).Nodup := by
  refine List.Nodup.map_on (fun r hr r' hr' heq => ?_) nodup_range
  have hpart (r : ℕ) (hr : r ∈ range (size true shape)) :
      part true shape (join shape fun kept => bif kept then r else g) = r :=
    part_join h (mem_range.mp hr)
  rw [← hpart r hr, heq, hpart r' hr']

/-- No rank is in two groups. -/
lemma nodup_flatten_rankGroups :
    ((range (size false shape)).map (rankGroup shape)).flatten.Nodup := by
  refine nodup_flatten.mpr ⟨fun g hg => ?_, ?_⟩
  · obtain ⟨i, -, rfl⟩ := mem_map.mp hg
    exact nodup_rankGroup h i
  · rw [pairwise_map]
    refine nodup_range.imp_of_mem fun hi hj hne y hy hy' => hne ?_
    rw [← ((mem_rankGroup_iff h (mem_range.mp hi)).mp hy).2,
      ((mem_rankGroup_iff h (mem_range.mp hj)).mp hy').2]

/-- The groups are a partition. -/
lemma partitionsWorld_rankGroups :
    PartitionsWorld (shape.map Prod.fst) (shape.map Prod.snd)
      ((range (size false shape)).map (rankGroup shape)) := by
  refine ⟨?_, fun g hg => ?_, fun x hx y hy => ?_⟩
  · rw [perm_ext_iff_of_nodup (nodup_flatten_rankGroups h) nodup_range]
    intro y
    rw [mem_range, mem_flatten]
    constructor
    · rintro ⟨g, hg, hy⟩
      obtain ⟨i, hi, rfl⟩ := mem_map.mp hg
      exact ((mem_rankGroup_iff h (mem_range.mp hi)).mp hy).1
    · intro hy
      have hpart := part_lt h false y
      exact ⟨_, mem_map_of_mem (mem_range.mpr hpart),
        (mem_rankGroup_iff h hpart).mpr ⟨hy, rfl⟩⟩
  · obtain ⟨i, -, rfl⟩ := mem_map.mp hg
    rw [rankGroup, length_map, length_range, prod_masked]
  · rw [← part_eq_iff_digits h]
    constructor
    · rintro ⟨g, hg, hxg, hyg⟩
      obtain ⟨i, hi, rfl⟩ := mem_map.mp hg
      rw [((mem_rankGroup_iff h (mem_range.mp hi)).mp hxg).2,
        ((mem_rankGroup_iff h (mem_range.mp hi)).mp hyg).2]
    · intro heq
      have hpart := part_lt h false y
      exact ⟨_, mem_map_of_mem (mem_range.mpr hpart),
        (mem_rankGroup_iff h hpart).mpr ⟨hx, heq⟩, (mem_rankGroup_iff h hpart).mpr ⟨hy, rfl⟩⟩

end

/-! ## Groups of the opposite mask -/

/-- The shape with the opposite mask. -/
def opposite (shape : List (ℕ × Bool)) : List (ℕ × Bool) := shape.map fun d => (d.1, !d.2)

lemma map_fst_opposite (shape : List (ℕ × Bool)) :
    (opposite shape).map Prod.fst = shape.map Prod.fst := by
  rw [opposite, map_map]
  rfl

lemma map_snd_opposite (shape : List (ℕ × Bool)) :
    (opposite shape).map Prod.snd = (shape.map Prod.snd).map not := by
  rw [opposite, map_map, map_map]
  rfl

lemma positive_opposite (h : Positive shape) : Positive (opposite shape) := by
  intro d hd
  obtain ⟨e, he, rfl⟩ := mem_map.mp hd
  exact h e he

lemma part_opposite (shape : List (ℕ × Bool)) (k : Bool) (x : ℕ) :
    part k (opposite shape) x = part (!k) shape x := by
  induction shape generalizing x with
  | nil => rfl
  | cons d shape ih =>
    change part k ((d.1, !d.2) :: opposite shape) x = part (!k) ((d.1, d.2) :: shape) x
    rw [part, part, ih]
    cases d.2 <;> cases k <;> rfl

lemma size_opposite (shape : List (ℕ × Bool)) (k : Bool) :
    size k (opposite shape) = size (!k) shape := by
  induction shape with
  | nil => rfl
  | cons d shape ih =>
    change size k ((d.1, !d.2) :: opposite shape) = size (!k) ((d.1, d.2) :: shape)
    rw [size, size, ih]
    cases d.2 <;> cases k <;> rfl

/-- A rank is given by its group and its group of the opposite mask. -/
lemma existsUnique_mem_rankGroups (h : Positive shape) {g g' : ℕ} (hg : g < size false shape)
    (hg' : g' < size false (opposite shape)) :
    ∃! x, x ∈ rankGroup shape g ∧ x ∈ rankGroup (opposite shape) g' := by
  simp only [mem_rankGroup_iff h hg, mem_rankGroup_iff (positive_opposite h) hg',
    map_fst_opposite, part_opposite, Bool.not_false]
  rw [size_opposite] at hg'
  refine ⟨join shape fun kept => bif kept then g' else g,
    ⟨⟨join_lt h _, part_join h hg⟩, join_lt h _, part_join h hg'⟩, ?_⟩
  rintro x ⟨⟨hx, hfalse⟩, -, htrue⟩
  rw [← join_part h hx]
  congr 1
  funext kept
  cases kept with
  | true => exact htrue
  | false => exact hfalse

/-! ## The groups that the source computes -/

/-- For all positive sizes and every mask, the world is partitioned as the mask says, and a group of
the mask meets one of the opposite mask in exactly one rank. -/
theorem rank_groups_partition_world {sizes : List ℕ} {mask : List Bool}
    (hpos : ∀ n ∈ sizes, 0 < n) (hlength : mask.length = sizes.length) :
    ∃ groups groups', generateMaskedOrthogonalRankGroups sizes.prod sizes mask = .ok groups ∧
      generateMaskedOrthogonalRankGroups sizes.prod sizes (mask.map not) = .ok groups' ∧
      PartitionsWorld sizes mask groups ∧
      ∀ g ∈ groups, ∀ g' ∈ groups', ∃! x, x ∈ g ∧ x ∈ g' := by
  obtain ⟨shape, rfl, rfl⟩ : ∃ shape : List (ℕ × Bool),
      shape.map Prod.fst = sizes ∧ shape.map Prod.snd = mask :=
    ⟨sizes.zip mask, map_fst_zip hlength.ge, map_snd_zip hlength.le⟩
  have h : Positive shape := fun d hd => hpos d.1 (mem_map_of_mem hd)
  have hgroups' := generateMaskedOrthogonalRankGroups_eq (positive_opposite h)
  rw [map_fst_opposite, map_snd_opposite] at hgroups'
  refine ⟨_, _, generateMaskedOrthogonalRankGroups_eq h, hgroups', partitionsWorld_rankGroups h,
    fun g hg g' hg' => ?_⟩
  obtain ⟨i, hi, rfl⟩ := mem_map.mp hg
  obtain ⟨i', hi', rfl⟩ := mem_map.mp hg'
  exact existsUnique_mem_rankGroups h (mem_range.mp hi) (mem_range.mp hi')

/-- The example of the source: sizes 2, 3 and 4, and the groups of the second dimension. -/
theorem rank_groups_partition_twentyFour :
    ∃ groups groups', generateMaskedOrthogonalRankGroups 24 [2, 3, 4] [false, true, false] =
        .ok groups ∧ groups[0]? = some [0, 2, 4] ∧ groups[7]? = some [19, 21, 23] ∧
      generateMaskedOrthogonalRankGroups 24 [2, 3, 4] [true, false, true] = .ok groups' ∧
      PartitionsWorld [2, 3, 4] [false, true, false] groups ∧
      ∀ g ∈ groups, ∀ g' ∈ groups', ∃! x, x ∈ g ∧ x ∈ g' := by
  obtain ⟨groups, groups', hgroups, hgroups', hpartition, hmeet⟩ :=
    @rank_groups_partition_world [2, 3, 4] [false, true, false] (by decide) rfl
  have hvalue : generateMaskedOrthogonalRankGroups 24 [2, 3, 4] [false, true, false] =
    .ok groups := hgroups
  obtain rfl := Except.ok.inj hvalue
  exact ⟨_, groups', hvalue, rfl, rfl, hgroups', hpartition, hmeet⟩

end OmniStreaming
