import Mathlib.Data.Finset.Card
import OmniStreaming.Lib.MixedRadix
import OmniStreaming.Lib.Slices

/-!
# Groups of ranks of the diffusion workers

`initialize_model_parallel` gives each rank its groups. Those of the five dimensions (tensor,
sequence, pipeline, classifier free guidance and data parallelism) come from
`generate_masked_orthogonal_rank_groups`: a rank is a mixed radix number with one digit for each
dimension, the lowest that of the tensor dimension, and a group holds the ranks that differ in one
digit alone.

The sequence-parallel group is divided into a Ulysses group and a ring group by
`set_seq_parallel_pg`, which takes its ranks to be consecutive. That is so iff the tensor dimension,
or the sequence dimension, is trivial (`sequence_groups_consistent_iff`).
-/

namespace OmniStreaming

open List MixedRadix Prod

/-! ## Orthogonal groups -/

/-- `prefix_product(a, init)`: the products of the beginnings of `a`. -/
def prefixProduct (init : ℕ) : List ℕ → List ℕ
  | [] => [init]
  | v :: a => init :: prefixProduct (init * v) a

/-- `inner_product(a, b)`. -/
def innerProduct (a b : List ℕ) : ℕ := (zipWith (· * ·) a b).sum

/-- `decompose(index, shape)`: the digits of an index, with the assertion that they make it up. -/
def decompose (index : ℕ) (shape : List ℕ) : Except String (List ℕ) :=
  let stride := prefixProduct 1 shape
  let idx := zipWith (fun s d => index / d % s) shape stride
  if innerProduct idx stride.dropLast = index then .ok idx
  else .error s!"idx {index} with shape {shape} mismatch the return idx {idx}"

/-- `[x for x, m in zip(xs, mask) if m]`, or `if not m`. -/
def masked (xs : List ℕ) (mask : List Bool) (kept : Bool) : List ℕ :=
  ((xs.zip mask).filter fun e => e.2 == kept).map fst

/-- `generate_masked_orthogonal_rank_groups`. -/
def generateMaskedOrthogonalRankGroups (worldSize : ℕ) (parallelSize : List ℕ)
    (mask : List Bool) : Except String (List (List ℕ)) :=
  let maskedShape := masked parallelSize mask true
  let unmaskedShape := masked parallelSize mask false
  let globalStride := prefixProduct 1 parallelSize
  let maskedStride := masked globalStride mask true
  let unmaskedStride := masked globalStride mask false
  let groupSize := (prefixProduct 1 maskedShape).getLastD 1
  let numOfGroup := worldSize / groupSize
  (range numOfGroup).mapM fun groupIndex => do
    let decomposedGroupIdx ← decompose groupIndex unmaskedShape
    (range groupSize).mapM fun rankInGroup => do
      let decomposedRankIdx ← decompose rankInGroup maskedShape
      return innerProduct decomposedRankIdx maskedStride +
        innerProduct decomposedGroupIdx unmaskedStride

/-- The dimensions of `RankGenerator`, in the order of `name_to_size`. -/
inductive ParallelDim
  | tp
  | sp
  | pp
  | cfg
  | dp
  deriving DecidableEq

/-- The keys of `name_to_size`. -/
def ParallelDim.names : List ParallelDim := [.tp, .sp, .pp, .cfg, .dp]

def ParallelDim.text : ParallelDim → String
  | .tp => "tp"
  | .sp => "sp"
  | .pp => "pp"
  | .cfg => "cfg"
  | .dp => "dp"

/-- A `RankGenerator` after its construction. -/
structure RankGenerator where
  nameToSize : ParallelDim → ℕ
  rankOffset : ℕ
  order : List ParallelDim

namespace RankGenerator

/-- One pass of the loop over `name_to_size`: a missing name is appended to the order. If its size
is not 1, the text of the error reads `self.order`, which is not there yet. -/
def addName (nameToSize : ParallelDim → ℕ) (order : List ParallelDim) (name : ParallelDim) :
    Except String (List ParallelDim) :=
  if name ∈ order then .ok order
  else if nameToSize name = 1 then .ok (order ++ [name])
  else .error "'RankGenerator' object has no attribute 'order'"

def init (nameToSize : ParallelDim → ℕ) (order : List ParallelDim) (rankOffset : ℕ) :
    Except String RankGenerator := do
  let order ← ParallelDim.names.foldlM (addName nameToSize) order
  return { nameToSize, rankOffset, order }

def worldSize (g : RankGenerator) : ℕ :=
  g.nameToSize .tp * g.nameToSize .sp * g.nameToSize .pp * g.nameToSize .cfg * g.nameToSize .dp

def orderedSize (g : RankGenerator) : List ℕ := g.order.map g.nameToSize

/-- `get_mask(order, token)`. -/
def getMask (order token : List ParallelDim) : Except String (List Bool) :=
  token.foldlM
    (fun mask t =>
      if t ∈ order then .ok (mask.set (order.idxOf t) true)
      else .error ("'" ++ t.text ++ "' is not in list"))
    (replicate order.length false)

/-- `get_ranks(token)`. -/
def getRanks (g : RankGenerator) (token : List ParallelDim) : Except String (List (List ℕ)) := do
  let mask ← getMask g.order token
  let ranks ← generateMaskedOrthogonalRankGroups g.worldSize g.orderedSize mask
  return if 0 < g.rankOffset then ranks.map fun group => group.map (· + g.rankOffset) else ranks

end RankGenerator

/-! ## Ulysses and ring groups -/

/-- `list(range(start, stop, step))`. -/
def pyRange (start stop step : ℕ) : List ℕ :=
  range' start ((stop - start + step - 1) / step) step

/-- The loop that creates groups and remembers the last one that has the rank in it. -/
def pgOf (rank : ℕ) (groups : List (List ℕ)) : Option (List ℕ) :=
  (groups.filter (rank ∈ ·)).getLast?

/-- Groups of `size` consecutive ranks, `num` of them for each block of `spSize` ranks. -/
def consecutivePgs (size num spSize dpSize : ℕ) : List (List ℕ) :=
  (range dpSize).flatMap fun dpRank =>
    let offset := dpRank * spSize
    (range num).map fun i => pyRange (i * size + offset) ((i + 1) * size + offset) 1

/-- Groups of every `num`-th rank of a block, `num` of them for each block of `spSize` ranks. -/
def stridedPgs (num spSize dpSize : ℕ) : List (List ℕ) :=
  (range dpSize).flatMap fun dpRank =>
    let offset := dpRank * spSize
    (range num).map fun i => pyRange (i + offset) (spSize + offset) num

def setSeqParallelPg (spUlyssesDegree spRingDegree rank worldSize : ℕ) (useUlyssesLow : Bool) :
    Except String (List ℕ × List ℕ) :=
  let spSize := spRingDegree * spUlyssesDegree
  let dpSize := worldSize / spSize
  let numUlyssesPgs := spRingDegree
  let numRingPgs := spUlyssesDegree
  if worldSize % spSize ≠ 0 then
    .error s!"world_size {worldSize} % sp_size {spUlyssesDegree} == 0"
  else
    let ulyssesPgs :=
      if useUlyssesLow then consecutivePgs spUlyssesDegree numUlyssesPgs spSize dpSize
      else stridedPgs numUlyssesPgs spSize dpSize
    let ringPgs :=
      if useUlyssesLow then stridedPgs numRingPgs spSize dpSize
      else consecutivePgs spRingDegree numRingPgs spSize dpSize
    match pgOf rank ulyssesPgs, pgOf rank ringPgs with
    | some ulyssesPg, some ringPg => .ok (ulyssesPg, ringPg)
    | none, _ => .error
      "cannot access local variable 'ulyssess_pg' where it is not associated with a value"
    | _, none => .error
      "cannot access local variable 'ring_pg' where it is not associated with a value"

/-! ## Initialisation -/

variable {rank : ℕ}

lemma mem_of_pgOf {groups : List (List ℕ)} {g : List ℕ} (h : pgOf rank groups = some g) :
    rank ∈ g :=
  of_decide_eq_true (mem_filter.mp (mem_of_getLast? h)).2

/-- The group of a rank, as a `GroupCoordinator` holds it. -/
structure GroupCoordinator where
  rank : ℕ
  ranks : List ℕ
  rank_mem : rank ∈ ranks

/-- `GroupCoordinator.__init__`, which asserts that the rank is in one of the groups. -/
def GroupCoordinator.init (groupRanks : List (List ℕ)) (rank : ℕ) :
    Except String GroupCoordinator :=
  match h : pgOf rank groupRanks with
  | some ranks => .ok ⟨rank, ranks, mem_of_pgOf h⟩
  | none => .error ""

/-- The sequence-parallel group of a rank, with its Ulysses group and its ring group. -/
structure SequenceParallelGroupCoordinator extends GroupCoordinator where
  ulyssesGroup : List ℕ
  ringGroup : List ℕ

/-- What `initialize_model_parallel` stores for a rank. -/
structure ParallelGroups where
  dp : GroupCoordinator
  cfg : GroupCoordinator
  pp : GroupCoordinator
  sp : SequenceParallelGroupCoordinator
  tp : GroupCoordinator

/-- The sizes that `initialize_model_parallel` is called with. -/
structure ParallelSizes where
  dataParallelSize : ℕ
  cfgParallelSize : ℕ
  sequenceParallelSize : Option ℕ
  ulyssesDegree : ℕ
  ringDegree : ℕ
  tensorParallelSize : ℕ
  pipelineParallelSize : ℕ
  data_pos : 0 < dataParallelSize
  cfg_pos : 0 < cfgParallelSize
  ulysses_pos : 0 < ulyssesDegree
  ring_pos : 0 < ringDegree
  tensor_pos : 0 < tensorParallelSize
  pipeline_pos : 0 < pipelineParallelSize

namespace ParallelSizes

/-- `sequence_parallel_size`, which is computed if it is not given. -/
def sequenceSize (c : ParallelSizes) : ℕ :=
  c.sequenceParallelSize.getD (c.ringDegree * c.ulyssesDegree)

def ditParallelSize (c : ParallelSizes) : ℕ :=
  c.dataParallelSize * c.cfgParallelSize * c.sequenceSize * c.pipelineParallelSize *
    c.tensorParallelSize

/-- The arguments of the `RankGenerator`. -/
def nameToSize (c : ParallelSizes) : ParallelDim → ℕ
  | .tp => c.tensorParallelSize
  | .sp => c.sequenceSize
  | .pp => c.pipelineParallelSize
  | .cfg => c.cfgParallelSize
  | .dp => c.dataParallelSize

/-- The groups of a rank, after the checks of `initialize_model_parallel`. -/
def groups (c : ParallelSizes) (rank : ℕ) : Except String ParallelGroups := do
  let rankGenerator ← RankGenerator.init c.nameToSize [.tp, .sp, .pp, .cfg, .dp] 0
  let dp ← GroupCoordinator.init (← rankGenerator.getRanks [.dp]) rank
  let cfg ← GroupCoordinator.init (← rankGenerator.getRanks [.cfg]) rank
  let pp ← GroupCoordinator.init (← rankGenerator.getRanks [.pp]) rank
  let (ulyssesGroup, ringGroup) ←
    setSeqParallelPg c.ulyssesDegree c.ringDegree rank c.ditParallelSize true
  let sp ← GroupCoordinator.init (← rankGenerator.getRanks [.sp]) rank
  let tp ← GroupCoordinator.init (← rankGenerator.getRanks [.tp]) rank
  return { dp, cfg, pp, sp := { sp with ulyssesGroup, ringGroup }, tp }

end ParallelSizes

/-- `initialize_model_parallel` on one rank. -/
def initializeModelParallel (c : ParallelSizes) (isNpu : Bool) (worldSize rank : ℕ) :
    Except String ParallelGroups :=
  if c.sequenceSize ≠ c.ringDegree * c.ulyssesDegree then
    .error <| "sequence_parallel_size is not equal to ring_degree * ulysses_degree, but got " ++
      toString c.sequenceSize ++ " != " ++ toString c.ringDegree ++ " * " ++
      toString c.ulyssesDegree
  else if isNpu ∧ c.pipelineParallelSize ≠ 1 then
    .error "Current pipefusion is not ready for NPU"
  else if worldSize < c.ditParallelSize then
    .error <| "world_size (" ++ toString worldSize ++ ") is less than tensor_parallel_size (" ++
      toString c.tensorParallelSize ++ ") x pipeline_parallel_size (" ++
      toString c.pipelineParallelSize ++ ") xsequence_parallel_size (" ++
      toString c.sequenceSize ++ ") xcfg_parallel_size (" ++ toString c.cfgParallelSize ++
      ") xdata_parallel_size (" ++ toString c.dataParallelSize ++ ")"
  else c.groups rank

/-- The groups within the sequence dimension fit together on a rank. -/
structure SequenceGroupsConsistent (c : ParallelSizes) (groups : ℕ → ParallelGroups) (rank : ℕ) :
    Prop where
  ulysses_card : (groups rank).sp.ulyssesGroup.toFinset.card = c.ulyssesDegree
  ring_card : (groups rank).sp.ringGroup.toFinset.card = c.ringDegree
  ulysses_subset : (groups rank).sp.ulyssesGroup ⊆ (groups rank).sp.ranks
  ring_subset : (groups rank).sp.ringGroup ⊆ (groups rank).sp.ranks
  meet : ∀ x, x ∈ (groups rank).sp.ulyssesGroup ∧ x ∈ (groups rank).sp.ringGroup ↔ x = rank
  reached : ∀ x ∈ (groups rank).sp.ranks, ∃ k ∈ (groups rank).sp.ulyssesGroup,
    x ∈ (groups k).sp.ringGroup

/-! ## The groups of one dimension -/

section Orthogonal

variable {shape : List (ℕ × Bool)}

lemma zipWith_prefixProduct (index d : ℕ) (sizes : List ℕ) :
    zipWith (fun s d => index / d % s) sizes (prefixProduct d sizes) =
      digits sizes (index / d) := by
  induction sizes generalizing d with
  | nil => rfl
  | cons n sizes ih =>
    rw [prefixProduct, zipWith_cons_cons, ih, digits, Nat.div_div_eq_div_mul]

lemma prefixProduct_ne_nil (d : ℕ) (sizes : List ℕ) : prefixProduct d sizes ≠ [] := by
  cases sizes <;> exact cons_ne_nil _ _

lemma innerProduct_cons (a b : ℕ) (as bs : List ℕ) :
    innerProduct (a :: as) (b :: bs) = a * b + innerProduct as bs := by
  rw [innerProduct, zipWith_cons_cons, sum_cons, innerProduct]

variable {x : ℕ}

lemma innerProduct_digits {sizes : List ℕ} (hx : x < sizes.prod) (d : ℕ) :
    innerProduct (digits sizes x) (prefixProduct d sizes).dropLast = d * x := by
  induction sizes generalizing x d with
  | nil =>
    rw [Nat.lt_one_iff.mp hx]
    rfl
  | cons n sizes ih =>
    rw [prod_cons] at hx
    rw [prefixProduct, dropLast_cons_of_ne_nil (prefixProduct_ne_nil _ _), digits,
      innerProduct_cons, ih (Nat.div_lt_of_lt_mul hx)]
    calc x % n * d + d * n * (x / n) = d * (x % n + n * (x / n)) := by ring
      _ = d * x := by rw [Nat.mod_add_div]

/-- The assertion of `decompose` holds for every index in the range of the shape. -/
lemma decompose_eq {sizes : List ℕ} (hx : x < sizes.prod) :
    decompose x sizes = .ok (digits sizes x) := by
  have hidx := zipWith_prefixProduct x 1 sizes
  have hsum := innerProduct_digits hx 1
  rw [Nat.div_one] at hidx
  rw [one_mul] at hsum
  rw [decompose, hidx, if_pos hsum]

lemma getLastD_prefixProduct (d e : ℕ) (sizes : List ℕ) :
    (prefixProduct d sizes).getLastD e = d * sizes.prod := by
  induction sizes generalizing d e with
  | nil => exact (Nat.mul_one d).symm
  | cons n sizes ih => rw [prefixProduct, getLastD_cons, ih, prod_cons, Nat.mul_assoc]

lemma masked_cons (n : ℕ) (k : Bool) (xs : List ℕ) (mask : List Bool) (kept : Bool) :
    masked (n :: xs) (k :: mask) kept =
      if k = kept then n :: masked xs mask kept else masked xs mask kept := by
  rw [masked, zip_cons_cons, filter_cons]
  by_cases hk : k = kept
  · rw [if_pos hk, if_pos (beq_iff_eq.mpr hk)]
    rfl
  · rw [if_neg hk, if_neg (mt beq_iff_eq.mp hk)]
    rfl

/-- The group size of a mask. -/
lemma prod_masked (shape : List (ℕ × Bool)) (kept : Bool) :
    (masked (shape.map fst) (shape.map snd) kept).prod = size kept shape := by
  induction shape with
  | nil => rfl
  | cons d shape ih =>
    rw [map_cons, map_cons, masked_cons, size, ← ih]
    split
    · exact prod_cons
    · rfl

/-- The two inner products of the source make the number that is joined from its two indices. -/
lemma innerProduct_masked (shape : List (ℕ × Bool)) (f : Bool → ℕ) (d : ℕ) :
    innerProduct (digits (masked (shape.map fst) (shape.map snd) true) (f true))
        (masked (prefixProduct d (shape.map fst)) (shape.map snd) true) +
      innerProduct (digits (masked (shape.map fst) (shape.map snd) false) (f false))
        (masked (prefixProduct d (shape.map fst)) (shape.map snd) false) =
    d * join shape f := by
  induction shape generalizing d f with
  | nil => rfl
  | cons e shape ih =>
    obtain ⟨n, k⟩ := e
    have hrest := ih (Function.update f k (f k / n)) (d * n)
    simp only [map_cons, prefixProduct, masked_cons, join]
    cases k with
    | true =>
      rw [Function.update_self, Function.update_of_ne Bool.false_ne_true] at hrest
      rw [if_pos rfl, if_pos rfl, if_neg (Ne.symm Bool.false_ne_true),
        if_neg (Ne.symm Bool.false_ne_true), digits, innerProduct_cons, Nat.add_assoc, hrest]
      ring
    | false =>
      rw [Function.update_self, Function.update_of_ne (Ne.symm Bool.false_ne_true)] at hrest
      rw [if_pos rfl, if_pos rfl, if_neg Bool.false_ne_true, if_neg Bool.false_ne_true, digits,
        innerProduct_cons, Nat.add_left_comm, hrest]
      ring

/-- The group with index `g`. -/
def rankGroup (shape : List (ℕ × Bool)) (g : ℕ) : List ℕ :=
  (range (size true shape)).map fun r => join shape fun kept => bif kept then r else g

lemma prod_eq_size_mul_size (shape : List (ℕ × Bool)) :
    (shape.map fst).prod = size true shape * size false shape := by
  induction shape with
  | nil => rfl
  | cons d shape ih =>
    obtain ⟨n, k⟩ := d
    rw [map_cons, prod_cons, ih, size, size]
    cases k with
    | true => exact (Nat.mul_assoc _ _ _).symm
    | false => exact Nat.mul_left_comm _ _ _

/-- No assertion of `generate_masked_orthogonal_rank_groups` fails. -/
lemma generateMaskedOrthogonalRankGroups_eq (h : Positive shape) :
    generateMaskedOrthogonalRankGroups (shape.map fst).prod (shape.map fst)
        (shape.map snd) =
      .ok ((range (size false shape)).map (rankGroup shape)) := by
  have hsize : 0 < size true shape := Nat.zero_lt_of_lt (part_lt h true 0)
  rw [generateMaskedOrthogonalRankGroups, getLastD_prefixProduct, one_mul, prod_masked,
    prod_eq_size_mul_size, Nat.mul_div_cancel_left _ hsize]
  refine Slices.mapM_eq_pure fun g hg => ?_
  have hg' : g < (masked (shape.map fst) (shape.map snd) false).prod := by
    rw [prod_masked]
    exact mem_range.mp hg
  rw [decompose_eq hg']
  refine Slices.mapM_eq_pure fun r hr => ?_
  have hr' : r < (masked (shape.map fst) (shape.map snd) true).prod := by
    rw [prod_masked]
    exact mem_range.mp hr
  rw [decompose_eq hr']
  have hjoin := innerProduct_masked shape (fun kept => bif kept then r else g) 1
  rw [one_mul] at hjoin
  exact congrArg Except.ok hjoin

/-- The loop remembers the only group that has the rank. -/
lemma pgOf_eq {rank : ℕ} {groups : List (List ℕ)} {g : List ℕ} (hg : g ∈ groups)
    (hrank : rank ∈ g) (honly : ∀ g' ∈ groups, rank ∈ g' → g' = g) : pgOf rank groups = some g := by
  have hmem : g ∈ groups.filter (rank ∈ ·) := mem_filter.mpr ⟨hg, decide_eq_true hrank⟩
  have hlast := mem_filter.mp (getLast_mem (ne_nil_of_mem hmem))
  rw [pgOf, getLast?_eq_some_getLast (ne_nil_of_mem hmem),
    honly _ hlast.1 (of_decide_eq_true hlast.2)]

/-- The members of the group of a rank are the ranks with the same digits in the other
dimensions. -/
lemma mem_rankGroup (h : Positive shape) {y : ℕ} :
    y ∈ rankGroup shape (part false shape x) ↔
      y < (shape.map fst).prod ∧ part false shape y = part false shape x := by
  have hlt := part_lt h false x
  constructor
  · intro hy
    obtain ⟨r, -, rfl⟩ := mem_map.mp hy
    exact ⟨join_lt h _, part_join h hlt⟩
  · rintro ⟨hy, hpart⟩
    refine mem_map.mpr ⟨part true shape y, mem_range.mpr (part_lt h true y), ?_⟩
    have hparts : (fun kept => bif kept then part true shape y else part false shape x) =
        fun kept => part kept shape y := by
      funext kept
      cases kept with
      | true => rfl
      | false => exact hpart.symm
    rw [hparts, join_part h hy]

lemma pgOf_rankGroups (h : Positive shape) (hx : x < (shape.map fst).prod) :
    pgOf x ((range (size false shape)).map (rankGroup shape)) =
      some (rankGroup shape (part false shape x)) := by
  refine pgOf_eq (mem_map_of_mem (mem_range.mpr (part_lt h false x)))
    ((mem_rankGroup h).mpr ⟨hx, rfl⟩) fun g' hg' hmem => ?_
  obtain ⟨g, hg, rfl⟩ := mem_map.mp hg'
  obtain ⟨r, -, rfl⟩ := mem_map.mp hmem
  rw [part_join h (mem_range.mp hg)]
  rfl

end Orthogonal

/-! ## The groups within the sequence dimension -/

section Blocks

variable {size num x y : ℕ}

/-- A group of consecutive ranks. -/
lemma mem_consecutive (hsize : 0 < size) :
    y ∈ range' (x / size * size) size ↔ y / size = x / size := by
  rw [mem_range'_1, ← Nat.succ_mul]
  exact ⟨fun h => Nat.div_eq_of_lt_le h.1 h.2, fun h => h ▸
    ⟨Nat.div_mul_le_self y size, Nat.lt_mul_of_div_lt (Nat.lt_succ_self _) hsize⟩⟩

/-- Each rank is in the group of its block of `size` ranks. -/
lemma pgOf_consecutivePgs {dpSize : ℕ} (hsize : 0 < size) (hnum : 0 < num)
    (hx : x < dpSize * (num * size)) :
    pgOf x (consecutivePgs size num (num * size) dpSize) =
      some (range' (x / size * size) size) := by
  have hgroup : ∀ dpRank i, pyRange (i * size + dpRank * (num * size))
      ((i + 1) * size + dpRank * (num * size)) 1 =
        range' ((i + dpRank * num) * size) size := by
    intro dpRank i
    have hstart : i * size + dpRank * (num * size) = (i + dpRank * num) * size := by ring
    have hlen : ((i + 1) * size + dpRank * (num * size) - (i * size + dpRank * (num * size)) +
        1 - 1) / 1 = size := by
      rw [Nat.succ_mul]
      omega
    rw [pyRange, hlen, hstart]
  have hself : x / size % num + x / (num * size) * num = x / size := by
    rw [Nat.mul_comm num size, ← Nat.div_div_eq_div_mul, Nat.mul_comm, Nat.mod_add_div]
  refine pgOf_eq ?_ ((mem_consecutive hsize).mpr rfl) ?_
  · refine mem_flatMap.mpr ⟨x / (num * size), mem_range.mpr (Nat.div_lt_of_lt_mul
      (Nat.mul_comm dpSize _ ▸ hx)), mem_map.mpr ⟨x / size % num,
        mem_range.mpr (Nat.mod_lt _ hnum), ?_⟩⟩
    rw [hgroup, hself]
  · intro g hg hmem
    obtain ⟨dpRank, -, hg⟩ := mem_flatMap.mp hg
    obtain ⟨i, -, rfl⟩ := mem_map.mp hg
    rw [hgroup] at hmem ⊢
    have hbounds := mem_range'_1.mp hmem
    rw [← Nat.succ_mul] at hbounds
    rw [Nat.div_eq_of_lt_le hbounds.1 hbounds.2]

/-- A group of ranks at a distance. -/
lemma mem_strided (hnum : 0 < num) (hsize : 0 < size) :
    y ∈ range' (x / (size * num) * (size * num) + x % num) size num ↔
      y % num = x % num ∧ y / (size * num) = x / (size * num) := by
  rw [mem_range']
  constructor
  · rintro ⟨k, hk, rfl⟩
    have hlt : x % num + num * k < size * num := by
      have hmod : x % num < num := Nat.mod_lt x hnum
      calc x % num + num * k < num * (k + 1) := by rw [Nat.mul_succ]; omega
        _ ≤ num * size := Nat.mul_le_mul_left num hk
        _ = size * num := Nat.mul_comm _ _
    constructor
    · calc (x / (size * num) * (size * num) + x % num + num * k) % num
          = (x % num + num * (x / (size * num) * size + k)) % num := by ring_nf
        _ = x % num := by rw [Nat.add_mul_mod_self_left, Nat.mod_mod]
    · calc (x / (size * num) * (size * num) + x % num + num * k) / (size * num)
          = (x % num + num * k + size * num * (x / (size * num))) / (size * num) := by ring_nf
        _ = x / (size * num) := by
          rw [Nat.add_mul_div_left _ _ (Nat.mul_pos hsize hnum), Nat.div_eq_of_lt hlt, Nat.zero_add]
  · rintro ⟨hmod, hdiv⟩
    have hlt : y % (size * num) < num * size := by
      rw [Nat.mul_comm num size]
      exact Nat.mod_lt y (Nat.mul_pos hsize hnum)
    refine ⟨y % (size * num) / num, Nat.div_lt_of_lt_mul hlt, ?_⟩
    calc y = y % (size * num) + size * num * (y / (size * num)) := (Nat.mod_add_div _ _).symm
      _ = y % (size * num) % num + num * (y % (size * num) / num) +
            size * num * (y / (size * num)) := by rw [Nat.mod_add_div (y % (size * num)) num]
      _ = x % num + num * (y % (size * num) / num) + size * num * (x / (size * num)) := by
          rw [Nat.mod_mod_of_dvd y (Nat.dvd_mul_left num size), hmod, hdiv]
      _ = x / (size * num) * (size * num) + x % num + num * (y % (size * num) / num) := by ring

/-- Each rank is in the group of the ranks of its block that are a multiple of `num` away. -/
lemma pgOf_stridedPgs {dpSize : ℕ} (hnum : 0 < num) (hsize : 0 < size)
    (hx : x < dpSize * (size * num)) :
    pgOf x (stridedPgs num (size * num) dpSize) =
      some (range' (x / (size * num) * (size * num) + x % num) size num) := by
  have hgroup : ∀ dpRank, ∀ i < num, pyRange (i + dpRank * (size * num))
      (size * num + dpRank * (size * num)) num =
        range' (dpRank * (size * num) + i) size num := by
    intro dpRank i hi
    have hblock : num ≤ size * num := Nat.le_mul_of_pos_left num hsize
    have hcount : size * num + dpRank * (size * num) - (i + dpRank * (size * num)) + num - 1 =
        num - 1 - i + num * size := by
      rw [Nat.mul_comm num size]
      omega
    have hlen : (num - 1 - i + num * size) / num = size := by
      rw [Nat.add_mul_div_left _ _ hnum, Nat.div_eq_of_lt (by omega), Nat.zero_add]
    rw [pyRange, hcount, hlen, Nat.add_comm]
  refine pgOf_eq ?_ ((mem_strided hnum hsize).mpr ⟨rfl, rfl⟩) ?_
  · refine mem_flatMap.mpr ⟨x / (size * num), mem_range.mpr (Nat.div_lt_of_lt_mul
      (Nat.mul_comm dpSize _ ▸ hx)), mem_map.mpr ⟨x % num,
        mem_range.mpr (Nat.mod_lt _ hnum), ?_⟩⟩
    exact hgroup _ _ (Nat.mod_lt _ hnum)
  · intro g hg hmem
    obtain ⟨dpRank, -, hg⟩ := mem_flatMap.mp hg
    obtain ⟨i, hi, rfl⟩ := mem_map.mp hg
    rw [hgroup dpRank i (mem_range.mp hi)] at hmem ⊢
    -- the start of the group is the first rank of its own block and residue
    have hi := mem_range.mp hi
    have hmod : (dpRank * (size * num) + i) % num = i := by
      rw [← Nat.mul_assoc, Nat.mul_comm, Nat.mul_add_mod, Nat.mod_eq_of_lt hi]
    have hdiv : (dpRank * (size * num) + i) / (size * num) = dpRank := by
      rw [Nat.mul_comm dpRank, Nat.mul_add_div (Nat.mul_pos hsize hnum),
        Nat.div_eq_of_lt (hi.trans_le (Nat.le_mul_of_pos_left num hsize)), Nat.add_zero]
    have hstart := (mem_strided (x := dpRank * (size * num) + i) hnum hsize).mp
      (by rwa [hmod, hdiv])
    rw [hmod, hdiv] at hstart
    rw [hstart.1, hstart.2]

end Blocks

/-- The Ulysses group and the ring group of a rank, in both orders. -/
lemma setSeqParallelPg_eq {ulysses ring dpSize : ℕ} (hulysses : 0 < ulysses) (hring : 0 < ring)
    (hrank : rank < dpSize * (ring * ulysses)) :
    setSeqParallelPg ulysses ring rank (dpSize * (ring * ulysses)) true =
        .ok (range' (rank / ulysses * ulysses) ulysses,
          range' (rank / (ring * ulysses) * (ring * ulysses) + rank % ulysses) ring
            ulysses) ∧
      setSeqParallelPg ulysses ring rank (dpSize * (ring * ulysses)) false =
        .ok (range' (rank / (ulysses * ring) * (ulysses * ring) + rank % ring) ulysses ring,
          range' (rank / ring * ring) ring) := by
  have hpos : 0 < ring * ulysses := Nat.mul_pos hring hulysses
  have hcomm : ring * ulysses = ulysses * ring := Nat.mul_comm _ _
  have hmod : ¬ dpSize * (ring * ulysses) % (ring * ulysses) ≠ 0 :=
    not_not_intro (Nat.mul_mod_left _ _)
  have hdiv : dpSize * (ring * ulysses) / (ring * ulysses) = dpSize :=
    Nat.mul_div_cancel _ hpos
  constructor
  · rw [setSeqParallelPg, if_neg hmod, hdiv, if_pos rfl, if_pos rfl]
    dsimp only
    rw [pgOf_consecutivePgs hulysses hring hrank, pgOf_stridedPgs hulysses hring hrank]
  · rw [setSeqParallelPg, if_neg hmod, hdiv, if_neg Bool.false_ne_true,
      if_neg Bool.false_ne_true]
    rw [hcomm] at hrank ⊢
    dsimp only
    rw [pgOf_stridedPgs hring hulysses hrank, pgOf_consecutivePgs hring hulysses hrank]

/-! ## The groups of a rank -/

lemma GroupCoordinator.init_eq {groups : List (List ℕ)} {ranks : List ℕ}
    (h : pgOf rank groups = some ranks) :
    GroupCoordinator.init groups rank = .ok ⟨rank, ranks, mem_of_pgOf h⟩ := by
  unfold GroupCoordinator.init
  split
  · next ranks' h' =>
    cases h'.symm.trans h
    rfl
  · next h' => cases h'.symm.trans h

namespace ParallelSizes

variable {c : ParallelSizes} {rank : ℕ}

/-- The digits of a rank, with one dimension told from the others. -/
def shape (c : ParallelSizes) (dim : ParallelDim) : List (ℕ × Bool) :=
  ParallelDim.names.map fun d => (c.nameToSize d, decide (d = dim))

lemma prod_shape (c : ParallelSizes) (dim : ParallelDim) :
    ((c.shape dim).map fst).prod = c.ditParallelSize := by
  simp only [shape, ParallelDim.names, map_cons, map_nil, prod_cons, prod_nil,
    nameToSize, ditParallelSize]
  ring

def rankGenerator (c : ParallelSizes) : RankGenerator where
  nameToSize := c.nameToSize
  rankOffset := 0
  order := ParallelDim.names

lemma lt_of_div_eq {n x : ℕ} (hn : n ∣ c.ditParallelSize) (hrank : rank < c.ditParallelSize)
    (hdiv : x / n = rank / n) : x < c.ditParallelSize := by
  obtain ⟨k, hk⟩ := hn
  have hpos : 0 < n := Nat.pos_of_ne_zero fun h => by simp [hk, h] at hrank
  rw [hk, Nat.mul_comm, ← Nat.div_lt_iff_lt_mul hpos] at hrank ⊢
  exact hdiv ▸ hrank

variable (h : c.sequenceSize = c.ringDegree * c.ulyssesDegree)
include h

lemma positive_shape (dim : ParallelDim) : Positive (c.shape dim) := by
  intro d hd
  obtain ⟨name, -, rfl⟩ := mem_map.mp hd
  cases name with
  | tp => exact c.tensor_pos
  | sp =>
    change 0 < c.sequenceSize
    rw [h]
    exact Nat.mul_pos c.ring_pos c.ulysses_pos
  | pp => exact c.pipeline_pos
  | cfg => exact c.cfg_pos
  | dp => exact c.data_pos

/-- The groups of one dimension. -/
lemma getRanks_eq (dim : ParallelDim) :
    c.rankGenerator.getRanks [dim] =
      .ok ((range (size false (c.shape dim))).map (rankGroup (c.shape dim))) := by
  have hmask : RankGenerator.getMask ParallelDim.names [dim] =
      .ok ((c.shape dim).map snd) := by
    cases dim <;> rfl
  have hsize : c.rankGenerator.orderedSize = (c.shape dim).map fst := rfl
  have hworld : c.rankGenerator.worldSize = ((c.shape dim).map fst).prod := by
    rw [prod_shape, RankGenerator.worldSize, ditParallelSize]
    simp only [rankGenerator, nameToSize]
    ring
  have hgroups := generateMaskedOrthogonalRankGroups_eq (positive_shape h dim)
  rw [← hworld, ← hsize] at hgroups
  rw [RankGenerator.getRanks, show c.rankGenerator.order = ParallelDim.names from rfl, hmask]
  change (generateMaskedOrthogonalRankGroups _ _ _ >>= _) = _
  rw [hgroups]
  rfl

/-- Every rank gets its groups. -/
lemma exists_groups_eq (hrank : rank < c.ditParallelSize) :
    ∃ g, c.groups rank = .ok g ∧
      g.sp.ranks = rankGroup (c.shape .sp) (part false (c.shape .sp) rank) ∧
      g.sp.ulyssesGroup =
        range' (rank / c.ulyssesDegree * c.ulyssesDegree) c.ulyssesDegree ∧
      g.sp.ringGroup = range' (rank / (c.ringDegree * c.ulyssesDegree) *
        (c.ringDegree * c.ulyssesDegree) + rank % c.ulyssesDegree) c.ringDegree
          c.ulyssesDegree := by
  have hinit (dim : ParallelDim) := GroupCoordinator.init_eq
    (pgOf_rankGroups (positive_shape h dim) ((prod_shape c dim).symm ▸ hrank))
  have hdit : c.ditParallelSize = c.dataParallelSize * c.cfgParallelSize *
      c.pipelineParallelSize * c.tensorParallelSize * (c.ringDegree * c.ulyssesDegree) := by
    rw [ditParallelSize, h]
    ring
  rw [hdit] at hrank
  have hpg := (setSeqParallelPg_eq c.ulysses_pos c.ring_pos hrank).1
  rw [← hdit] at hpg
  have hgenerator : RankGenerator.init c.nameToSize [.tp, .sp, .pp, .cfg, .dp] 0 =
      .ok c.rankGenerator := rfl
  simp only [groups, hgenerator, bind, Except.bind, getRanks_eq h, hinit, hpg]
  exact ⟨_, rfl, rfl, rfl, rfl⟩

/-- The digits outside of the sequence dimension. -/
lemma part_sequenceShape {x : ℕ} (hx : x < c.ditParallelSize) :
    part false (c.shape .sp) x = x % c.tensorParallelSize + c.tensorParallelSize *
      (x / (c.tensorParallelSize * (c.ringDegree * c.ulyssesDegree))) := by
  have hshape : c.shape .sp = (c.tensorParallelSize, false) :: (c.sequenceSize, true) ::
      [(c.pipelineParallelSize, false), (c.cfgParallelSize, false),
        (c.dataParallelSize, false)] := rfl
  have hrest : x / c.tensorParallelSize / c.sequenceSize <
      ([(c.pipelineParallelSize, false), (c.cfgParallelSize, false),
        (c.dataParallelSize, false)].map fst).prod := by
    refine Nat.div_lt_of_lt_mul (Nat.div_lt_of_lt_mul (hx.trans_eq ?_))
    simp only [map_cons, map_nil, prod_cons, prod_nil, ditParallelSize]
    ring
  rw [hshape, part, if_pos rfl, part, if_neg (Ne.symm Bool.false_ne_true),
    part_eq_self (by simp) hrest, Nat.div_div_eq_div_mul, h]

lemma block_dvd_ditParallelSize :
    c.tensorParallelSize * (c.ringDegree * c.ulyssesDegree) ∣ c.ditParallelSize :=
  ⟨c.dataParallelSize * c.cfgParallelSize * c.pipelineParallelSize, by
    rw [ditParallelSize, h]
    ring⟩

/-- The members of a sequence-parallel group share the tensor digit and the block. -/
lemma mem_sequenceGroup (hrank : rank < c.ditParallelSize) (x : ℕ) :
    x ∈ rankGroup (c.shape .sp) (part false (c.shape .sp) rank) ↔
      x % c.tensorParallelSize = rank % c.tensorParallelSize ∧
      x / (c.tensorParallelSize * (c.ringDegree * c.ulyssesDegree)) =
        rank / (c.tensorParallelSize * (c.ringDegree * c.ulyssesDegree)) := by
  rw [mem_rankGroup (positive_shape h .sp), prod_shape, part_sequenceShape h hrank]
  constructor
  · rintro ⟨hx, hpart⟩
    rw [part_sequenceShape h hx] at hpart
    obtain ⟨hmod, hdiv⟩ := mod_div_of_digit c.tensor_pos x
      (x / (c.tensorParallelSize * (c.ringDegree * c.ulyssesDegree)))
    rw [hpart, (mod_div_of_digit c.tensor_pos _ _).1] at hmod
    rw [hpart, (mod_div_of_digit c.tensor_pos _ _).2] at hdiv
    exact ⟨hmod.symm, hdiv.symm⟩
  · rintro ⟨hmod, hdiv⟩
    have hx : x < c.ditParallelSize := lt_of_div_eq (block_dvd_ditParallelSize h) hrank hdiv
    rw [part_sequenceShape h hx, hmod, hdiv]
    exact ⟨hx, rfl⟩

end ParallelSizes

variable {c : ParallelSizes} {isNpu : Bool} {rank : ℕ} {groups : ℕ → ParallelGroups}

/-- The assertions that have passed. -/
lemma initializeModelParallel_eq_ok {g : ParallelGroups} {worldSize : ℕ}
    (h : initializeModelParallel c isNpu worldSize rank = .ok g) :
    c.sequenceSize = c.ringDegree * c.ulyssesDegree ∧ c.groups rank = .ok g := by
  unfold initializeModelParallel at h
  split at h
  · cases h
  next hsize =>
    split at h
    · cases h
    split at h
    · cases h
    exact ⟨not_not.mp hsize, h⟩

/-- The ranks get groups if the sizes of the sequence dimension agree and the pipeline dimension is
trivial where it has to be. -/
lemma exists_groups (h : c.sequenceSize = c.ringDegree * c.ulyssesDegree)
    (hnpu : isNpu = true → c.pipelineParallelSize = 1) :
    ∃ groups : ℕ → ParallelGroups, ∀ rank < c.ditParallelSize,
      initializeModelParallel c isNpu c.ditParallelSize rank = .ok (groups rank) := by
  have hrank : ∀ rank < c.ditParallelSize, ∃ g,
      initializeModelParallel c isNpu c.ditParallelSize rank = .ok g := by
    intro rank hlt
    obtain ⟨g, hg, -⟩ := ParallelSizes.exists_groups_eq h hlt
    refine ⟨g, ?_⟩
    rw [initializeModelParallel, if_neg (not_not_intro h), if_neg fun hn => hn.2 (hnpu hn.1),
      if_neg (lt_irrefl _), hg]
  have hpos : 0 < c.ditParallelSize := by
    rw [← ParallelSizes.prod_shape c .sp]
    exact Nat.zero_lt_of_lt (join_lt (ParallelSizes.positive_shape h .sp) fun _ => 0)
  obtain ⟨g₀, -⟩ := hrank 0 hpos
  have : Nonempty ParallelGroups := ⟨g₀⟩
  choose! groups hgroups using hrank
  exact ⟨groups, hgroups⟩

/-- The groups of a rank. -/
lemma groups_eq (hrank : rank < c.ditParallelSize) {g : ParallelGroups}
    (h : initializeModelParallel c isNpu c.ditParallelSize rank = .ok g) :
    (∀ x, x ∈ g.sp.ranks ↔ x % c.tensorParallelSize = rank % c.tensorParallelSize ∧
      x / (c.tensorParallelSize * (c.ringDegree * c.ulyssesDegree)) =
        rank / (c.tensorParallelSize * (c.ringDegree * c.ulyssesDegree))) ∧
      g.sp.ulyssesGroup =
        range' (rank / c.ulyssesDegree * c.ulyssesDegree) c.ulyssesDegree ∧
      g.sp.ringGroup = range' (rank / (c.ringDegree * c.ulyssesDegree) *
        (c.ringDegree * c.ulyssesDegree) + rank % c.ulyssesDegree) c.ringDegree
          c.ulyssesDegree := by
  obtain ⟨hsize, hok⟩ := initializeModelParallel_eq_ok h
  obtain ⟨g', hok', hranks, hulysses, hring⟩ := ParallelSizes.exists_groups_eq hsize hrank
  cases hok'.symm.trans hok
  refine ⟨fun x => ?_, hulysses, hring⟩
  rw [hranks]
  exact ParallelSizes.mem_sequenceGroup hsize hrank x

/-- Neighbours in a block differ in the tensor digit unless the tensor dimension is trivial. -/
lemma eq_one_of_block {n t : ℕ} (hn : 1 < n) (rank : ℕ)
    (h : ∀ x, x / n = rank / n → x % t = rank % t) : t = 1 := by
  have hfirst := h (n * (rank / n)) (Nat.mul_div_cancel_left _ (by omega))
  have hsecond := h (n * (rank / n) + 1) (by
    rw [Nat.mul_add_div (by omega), Nat.div_eq_of_lt hn, Nat.add_zero])
  have hzero := Nat.sub_mod_eq_zero_of_mod_eq (hsecond.trans hfirst.symm)
  rw [Nat.add_sub_cancel_left] at hzero
  exact Nat.dvd_one.mp (Nat.dvd_of_mod_eq_zero hzero)

section Ranks

variable (hrank : rank < c.ditParallelSize)
include hrank

variable {g : ParallelGroups} {x : ℕ}

section

variable (h : initializeModelParallel c isNpu c.ditParallelSize rank = .ok g)
include h

/-- The members of the Ulysses group. -/
lemma mem_ulyssesGroup : x ∈ g.sp.ulyssesGroup ↔ x / c.ulyssesDegree = rank / c.ulyssesDegree := by
  rw [(groups_eq hrank h).2.1, mem_consecutive c.ulysses_pos]

/-- The members of the ring group. -/
lemma mem_ringGroup :
    x ∈ g.sp.ringGroup ↔ x % c.ulyssesDegree = rank % c.ulyssesDegree ∧
      x / (c.ringDegree * c.ulyssesDegree) = rank / (c.ringDegree * c.ulyssesDegree) := by
  rw [(groups_eq hrank h).2.2, mem_strided c.ulysses_pos c.ring_pos]

/-- With a trivial tensor or sequence dimension, the sequence-parallel groups are consecutive. -/
lemma mem_ranks_of_trivial
    (htrivial : c.tensorParallelSize = 1 ∨ c.ringDegree * c.ulyssesDegree = 1) :
    x ∈ g.sp.ranks ↔
      x / (c.ringDegree * c.ulyssesDegree) = rank / (c.ringDegree * c.ulyssesDegree) := by
  rw [(groups_eq hrank h).1]
  rcases htrivial with hone | hone
  · rw [hone, Nat.mod_one, Nat.mod_one, Nat.one_mul]
    exact and_iff_right rfl
  · rw [hone, Nat.mul_one, Nat.div_one, Nat.div_one]
    refine ⟨fun h => ?_, fun h => h ▸ ⟨rfl, rfl⟩⟩
    rw [← Nat.mod_add_div x c.tensorParallelSize, h.1, h.2, Nat.mod_add_div]

end

/-- Two neighbours differ in the tensor digit, whether the Ulysses or the ring group has them. -/
lemma SequenceGroupsConsistent.trivial
    (hinit : initializeModelParallel c isNpu c.ditParallelSize rank = .ok (groups rank))
    (h : SequenceGroupsConsistent c groups rank) :
    c.tensorParallelSize = 1 ∨ c.ringDegree * c.ulyssesDegree = 1 := by
  have htensor : ∀ x ∈ (groups rank).sp.ranks,
      x % c.tensorParallelSize = rank % c.tensorParallelSize :=
    fun x hx => (((groups_eq hrank hinit).1 x).mp hx).1
  rw [or_iff_not_imp_right]
  intro hsequence
  rcases Nat.lt_or_ge 1 c.ulyssesDegree with hdegree | hdegree
  · refine eq_one_of_block hdegree rank fun x hx => htensor x (h.ulysses_subset ?_)
    exact (mem_ulyssesGroup hrank hinit).mpr hx
  · have hone : c.ulyssesDegree = 1 := Nat.le_antisymm hdegree c.ulysses_pos
    have hlt : 1 < c.ringDegree * c.ulyssesDegree :=
      lt_of_le_of_ne (Nat.mul_pos c.ring_pos c.ulysses_pos) (Ne.symm hsequence)
    refine eq_one_of_block hlt rank fun x hx => htensor x (h.ring_subset ?_)
    refine (mem_ringGroup hrank hinit).mpr ⟨?_, hx⟩
    rw [hone, Nat.mod_one, Nat.mod_one]

omit hrank in
/-- A Ulysses group lies in one block. -/
lemma div_block_eq_of_div_ulysses (h : x / c.ulyssesDegree = rank / c.ulyssesDegree) :
    x / (c.ringDegree * c.ulyssesDegree) = rank / (c.ringDegree * c.ulyssesDegree) := by
  rw [Nat.mul_comm, ← Nat.div_div_eq_div_mul, h, Nat.div_div_eq_div_mul]

/-- A rank of the block is in the ring group of the member of the Ulysses group that has its
Ulysses digit. -/
lemma exists_ulysses_ring
    (hinit : ∀ rank < c.ditParallelSize,
      initializeModelParallel c isNpu c.ditParallelSize rank = .ok (groups rank))
    (hx : x / (c.ringDegree * c.ulyssesDegree) = rank / (c.ringDegree * c.ulyssesDegree)) :
    ∃ k ∈ (groups rank).sp.ulyssesGroup, x ∈ (groups k).sp.ringGroup := by
  have hsize := (initializeModelParallel_eq_ok (hinit rank hrank)).1
  obtain ⟨hmod, hdiv⟩ := mod_div_of_digit c.ulysses_pos x (rank / c.ulyssesDegree)
  have hblock := div_block_eq_of_div_ulysses hdiv
  have hlt : x % c.ulyssesDegree + c.ulyssesDegree * (rank / c.ulyssesDegree) <
      c.ditParallelSize :=
    ParallelSizes.lt_of_div_eq ((Dvd.intro_left _ rfl).trans
      (ParallelSizes.block_dvd_ditParallelSize hsize)) hrank hblock
  refine ⟨_, (mem_ulyssesGroup hrank (hinit rank hrank)).mpr hdiv, ?_⟩
  exact (mem_ringGroup hlt (hinit _ hlt)).mpr ⟨hmod.symm, hx.trans hblock.symm⟩

end Ranks

/-- On every rank of a world that the sizes fill, the groups within the sequence dimension fit
together iff the tensor dimension or the sequence dimension is trivial. -/
theorem sequence_groups_consistent_iff
    (hinit : ∀ rank < c.ditParallelSize,
      initializeModelParallel c isNpu c.ditParallelSize rank = .ok (groups rank))
    (hrank : rank < c.ditParallelSize) :
    SequenceGroupsConsistent c groups rank ↔
      c.tensorParallelSize = 1 ∨ c.ringDegree * c.ulyssesDegree = 1 := by
  have hok := hinit rank hrank
  obtain ⟨-, hulysses, hring⟩ := groups_eq hrank hok
  refine ⟨fun h => h.trivial hrank hok, fun htrivial => ?_⟩
  have hranks {x : ℕ} := mem_ranks_of_trivial (x := x) hrank hok htrivial
  refine ⟨?_, ?_, fun x hx => ?_, fun x hx => ?_, fun x => ?_, fun x hx => ?_⟩
  · rw [hulysses, toFinset_card_of_nodup nodup_range', length_range']
  · rw [hring, toFinset_card_of_nodup (nodup_range' _ c.ulysses_pos),
      length_range']
  · exact hranks.mpr (div_block_eq_of_div_ulysses ((mem_ulyssesGroup hrank hok).mp hx))
  · exact hranks.mpr ((mem_ringGroup hrank hok).mp hx).2
  · -- the two groups fix the Ulysses digit and the digits above it
    rw [mem_ulyssesGroup hrank hok, mem_ringGroup hrank hok]
    refine ⟨fun h => ?_, fun h => h ▸ ⟨rfl, rfl, rfl⟩⟩
    rw [← Nat.mod_add_div x c.ulyssesDegree, h.1, h.2.1, Nat.mod_add_div]
  · exact exists_ulysses_ring hrank hinit (hranks.mp hx)

/-! ## Two worlds of four ranks -/

/-- Ulysses and ring groups of two ranks each. -/
def ulyssesRing : ParallelSizes where
  dataParallelSize := 1
  cfgParallelSize := 1
  sequenceParallelSize := some 4
  ulyssesDegree := 2
  ringDegree := 2
  tensorParallelSize := 1
  pipelineParallelSize := 1
  data_pos := by decide
  cfg_pos := by decide
  ulysses_pos := by decide
  ring_pos := by decide
  tensor_pos := by decide
  pipeline_pos := by decide

/-- Tensor parallelism over two ranks and Ulysses groups of two. -/
def tensorUlysses : ParallelSizes :=
  { ulyssesRing with sequenceParallelSize := none, ringDegree := 1, tensorParallelSize := 2,
                     ring_pos := by decide, tensor_pos := by decide }

/-- Two Ulysses groups of two ranks. -/
theorem sequence_groups_consistent_ulyssesRing :
    ∃ groups : ℕ → ParallelGroups, (∀ rank < 4,
      initializeModelParallel ulyssesRing false 4 rank = .ok (groups rank)) ∧
        ∀ rank < 4, SequenceGroupsConsistent ulyssesRing groups rank := by
  obtain ⟨groups, hgroups⟩ : ∃ groups : ℕ → ParallelGroups, ∀ rank < 4,
      initializeModelParallel ulyssesRing false 4 rank = .ok (groups rank) :=
    exists_groups (c := ulyssesRing) rfl fun h => absurd h Bool.false_ne_true
  exact ⟨groups, hgroups, fun rank hrank =>
    (sequence_groups_consistent_iff (c := ulyssesRing) hgroups hrank).mpr (.inl rfl)⟩

/-- The sequence-parallel group of rank 0 is 0 and 2, and its Ulysses group is 0 and 1. -/
theorem ulysses_group_not_subset :
    ∃ g, initializeModelParallel tensorUlysses false 4 0 = .ok g ∧ g.sp.ranks = [0, 2] ∧
      g.sp.ulyssesGroup = [0, 1] ∧ ¬ g.sp.ulyssesGroup ⊆ g.sp.ranks :=
  ⟨_, rfl, rfl, rfl, by decide⟩

end OmniStreaming
