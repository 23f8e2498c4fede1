import Mathlib.Data.List.Nodup
import OmniStreaming.Lib.OrderedDict

/-!
# The configuration of the connectors

`load_omni_transfer_config` collects the edges between the stages from three places: the connectors
that the stages name for their inputs and outputs, the list `runtime.edges`, and the sources
`engine_input_source` of the stages. The connectors of the first kind are configured explicitly,
the others get a shared memory connector. This second part runs inside of a `try` whose exceptions
are only logged.

The orchestrator builds the connectors of all edges. A stage builds those of its incoming edges, in
its own process, from entries `from_stage_X`.
-/

namespace OmniStreaming

open OrderedDict
open List hiding set

/-! ## Values -/

/-- A value of a YAML or JSON file. -/
inductive Yaml
  | null
  | bool (b : Bool)
  | int (n : ℤ)
  | float (text : List Char)
  | str (s : List Char)
  | list (xs : List Yaml)
  | dict (entries : List (Yaml × Yaml))

/-- The errors of the loader: its own two, and any exception of an operation on an unexpected
type. -/
inductive LoadError
  /-- `Undefined connector reference: {conn_ref}` -/
  | undefinedReference (ref : List Char)
  /-- `Connector configuration missing for edges: ...` -/
  | missingEdges (edges : List (List Char × List Char))
  | exception

namespace Yaml

/-- The value is the string `s`. -/
def isStr (s : List Char) : Yaml → Bool
  | .str t => t = s
  | _ => false

/-- The value of a key in the entries of a dictionary. -/
def find (entries : List (Yaml × Yaml)) (key : List Char) : Option Yaml :=
  (entries.find? fun e => e.1.isStr key).map Prod.snd

/-- `v.get(key, default)`. -/
def get (v : Yaml) (key : List Char) (default : Yaml) : Except LoadError Yaml :=
  match v with
  | .dict entries => .ok ((find entries key).getD default)
  | _ => .error .exception

/-- `v[key]`. -/
def index (v : Yaml) (key : List Char) : Except LoadError Yaml :=
  match v with
  | .dict entries =>
    match find entries key with
    | some x => .ok x
    | none => .error .exception
  | _ => .error .exception

/-- `key in v`. -/
def contains (v : Yaml) (key : List Char) : Except LoadError Bool :=
  match v with
  | .dict entries => .ok (find entries key).isSome
  | .list xs => .ok (xs.any (isStr key))
  | .str s => .ok (s.tails.any key.isPrefixOf)
  | _ => .error .exception

/-- `v.items()`. -/
def items (v : Yaml) : Except LoadError (List (Yaml × Yaml)) :=
  match v with
  | .dict entries => .ok entries
  | _ => .error .exception

/-- `for x in v`. -/
def iter (v : Yaml) : Except LoadError (List Yaml) :=
  match v with
  | .list xs => .ok xs
  | .dict entries => .ok (entries.map Prod.fst)
  | .str s => .ok (s.map fun c => .str [c])
  | _ => .error .exception

/-- `str(v)`, where `repr` prints lists and dictionaries. -/
def text (repr : Yaml → List Char) (v : Yaml) : List Char :=
  match v with
  | .null => "None".toList
  | .bool true => "True".toList
  | .bool false => "False".toList
  | .int n => (toString n).toList
  | .float t => t
  | .str s => s
  | v => repr v

end Yaml

/-! ## Removing a substring -/

/-- The characters behind the first `skip` ones without the occurrences of `pattern`. -/
def removeFrom (pattern : List Char) : ℕ → List Char → List Char
  | _, [] => []
  | skip + 1, _ :: cs => removeFrom pattern skip cs
  | 0, c :: cs =>
    if pattern.isPrefixOf (c :: cs) then removeFrom pattern (pattern.length - 1) cs
    else c :: removeFrom pattern 0 cs

/-- `s.replace(pattern, "")`. -/
def removeAll (pattern s : List Char) : List Char := removeFrom pattern 0 s

/-- Skipping is dropping. -/
lemma removeFrom_eq_drop (pattern : List Char) (skip : ℕ) (s : List Char) :
    removeFrom pattern skip s = removeFrom pattern 0 (s.drop skip) := by
  induction s generalizing skip with
  | nil => cases skip <;> rfl
  | cons c cs ih =>
    cases skip with
    | zero => rfl
    | succ skip => rw [removeFrom, drop_succ_cons, ih]

/-- An occurrence at the front is removed, and the search goes on behind it. -/
lemma removeAll_append {pattern : List Char} (hne : pattern ≠ []) (s : List Char) :
    removeAll pattern (pattern ++ s) = removeAll pattern s := by
  obtain ⟨c, cs, rfl⟩ := exists_cons_of_ne_nil hne
  rw [removeAll, cons_append, removeFrom, if_pos (by simp), removeFrom_eq_drop,
    length_cons, Nat.add_sub_cancel, drop_left, removeAll]

/-- Where the pattern does not occur, nothing is removed. -/
lemma removeAll_of_not_infix {pattern s : List Char} (h : ¬ pattern <:+: s) :
    removeAll pattern s = s := by
  induction s with
  | nil => rfl
  | cons c cs ih =>
    have hfront : ¬ pattern.isPrefixOf (c :: cs) = true := fun hp =>
      h (List.isPrefixOf_iff_prefix.mp hp).isInfix
    rw [removeAll, removeFrom, if_neg hfront]
    exact congrArg _ (ih fun hp => h (hp.trans (suffix_cons c cs).isInfix))

/-! ## The loader -/

/-- `ConnectorSpec`. -/
structure ConnectorSpec where
  name : Yaml
  extra : Yaml

/-- An edge: the stage that sends and the stage that receives. -/
abbrev StageEdge := List Char × List Char

/-- `from_stage_`. -/
def fromStage : List Char := "from_stage_".toList

/-- `to_stage_`. -/
def toStage : List Char := "to_stage_".toList

/-- The connector of a definition. -/
def connectorSpec (v : Yaml) : Except LoadError ConnectorSpec := do
  let name ← v.index "name".toList
  let extra ← v.get "extra".toList (.dict [])
  .ok ⟨name, extra⟩

/-- The connector that an entry refers to or defines. -/
def resolve (globalConnectors connRef : Yaml) : Except LoadError ConnectorSpec :=
  match connRef with
  | .str ref => do
    if ← globalConnectors.contains ref then
      let config ← globalConnectors.index ref
      connectorSpec config
    else .error (.undefinedReference ref)
  | v => connectorSpec v

section Loader

variable (repr : Yaml → List Char)

/-- The id of a stage. -/
def stageIdOf (stage : Yaml) : Except LoadError (List Char) := do
  let id ← stage.index "stage_id".toList
  .ok (id.text repr)

/-- The connectors under one key of a stage, where `edge` gives the edge of an entry's name. -/
def connectorEntries (globalConnectors stage : Yaml) (key pattern : List Char)
    (edge : List Char → StageEdge) : Except LoadError (List (StageEdge × ConnectorSpec)) := do
  let connectors ← stage.get key (.dict [])
  let entries ← connectors.items
  entries.mapM fun (name, connRef) => do
    let spec ← resolve globalConnectors connRef
    match name with
    | .str s => .ok (edge (removeAll pattern s), spec)
    | _ => .error .exception

/-- The connectors that a stage configures. -/
def stageEntries (globalConnectors stage : Yaml) :
    Except LoadError (List (StageEdge × ConnectorSpec)) := do
  let id ← stageIdOf repr stage
  let inputs ← connectorEntries globalConnectors stage "input_connectors".toList fromStage
    fun a => (a, id)
  let outputs ← connectorEntries globalConnectors stage "output_connectors".toList toStage
    fun b => (id, b)
  .ok (inputs ++ outputs)

/-- The edge of an entry of `runtime.edges`. -/
def runtimeEdge (edge : Yaml) : Except LoadError (List StageEdge) := do
  let a ← edge.get "from".toList .null
  let b ← edge.get "to".toList .null
  match a, b with
  | .null, _ => .ok []
  | _, .null => .ok []
  | a, b => .ok [(a.text repr, b.text repr)]

/-- The edges from the sources of a stage. -/
def sourceEdges (stage : Yaml) : Except LoadError (List StageEdge) := do
  let id ← stageIdOf repr stage
  let source ← stage.get "engine_input_source".toList (.list [])
  let sources ← source.iter
  .ok (sources.map fun a => (a.text repr, id))

/-- A loop that an exception may leave: what it has come to, and whether it has come to its end. -/
def untilError {α β : Type} (f : α → Except LoadError (List β)) : List α → List β × Bool
  | [] => ([], true)
  | a :: as =>
    match f a with
    | .ok bs => (bs ++ (untilError f as).1, (untilError f as).2)
    | .error _ => ([], false)

/-- The edges that the block of the automatic configuration comes to. -/
def autoEdges (runtimeConfig : Yaml) (stages : List Yaml) : List StageEdge :=
  if stages.isEmpty then []
  else
    match runtimeConfig.get "edges".toList (.list []) with
    | .error _ => []
    | .ok edges =>
      let runtime :=
        match edges with
        | .list es => untilError (runtimeEdge repr) es
        | _ => ([], true)
      if runtime.2 then runtime.1 ++ (untilError (sourceEdges repr) stages).1 else runtime.1

/-- The automatic connector. -/
def shmSpec (threshold : ℕ) : ConnectorSpec where
  name := .str "SharedMemoryConnector".toList
  extra := .dict [(.str "shm_threshold_bytes".toList, .int threshold)]

/-- The connectors with an automatic one for an edge that has none. -/
def autoConnector (threshold : ℕ) (connectors : List (StageEdge × ConnectorSpec))
    (edge : StageEdge) : List (StageEdge × ConnectorSpec) :=
  if edge ∈ keys connectors then connectors else set connectors edge (shmSpec threshold)

/-- What is read from a configuration: `runtime`, the stages and the explicit connectors in
order. -/
def readConfig (config : Yaml) :
    Except LoadError (Yaml × List Yaml × List (StageEdge × ConnectorSpec)) := do
  let runtimeConfig ← config.get "runtime".toList (.dict [])
  let globalConnectors ← runtimeConfig.get "connectors".toList (.dict [])
  let stageArgs ← config.get "stage_args".toList (.list [])
  let stages ← stageArgs.iter
  let entries ← stages.mapM (stageEntries repr globalConnectors)
  .ok (runtimeConfig, stages, entries.flatten)

/-- The explicit connectors; a later definition replaces an earlier one. -/
def explicitConnectors (entries : List (StageEdge × ConnectorSpec)) :
    List (StageEdge × ConnectorSpec) :=
  entries.foldl (fun d e => set d e.1 e.2) []

/-- `load_omni_transfer_config` on a dictionary. -/
def loadOmniTransferConfig (defaultShmThreshold : ℕ) (config : Yaml) :
    Except LoadError (List (StageEdge × ConnectorSpec)) := do
  let (runtimeConfig, stages, entries) ← readConfig repr config
  let auto := autoEdges repr runtimeConfig stages
  let connectors := auto.foldl (autoConnector defaultShmThreshold) (explicitConnectors entries)
  let missing := (entries.map Prod.fst ++ auto).filter (· ∉ keys connectors)
  if missing ≠ [] then .error (.missingEdges missing)
  else .ok connectors

end Loader

/-! ## The connectors of a stage -/

def getConnectorsConfigForStage (connectors : List (StageEdge × ConnectorSpec))
    (stage : List Char) : List (List Char × ConnectorSpec) :=
  connectors.foldl (fun d e => if e.1.2 = stage then set d (fromStage ++ e.1.1) e.2 else d) []

/-- `build_stage_connectors`, with a connector given by its type and options. -/
def buildStageConnectors (stage : List Char) (config : List (List Char × ConnectorSpec)) :
    List (StageEdge × ConnectorSpec) :=
  config.foldl (fun d e =>
    if fromStage.isPrefixOf e.1 then set d (removeAll fromStage e.1, stage) e.2 else d) []

/-! ## What the configuration is for -/

section Specification

variable (repr : Yaml → List Char) (config : Yaml)

/-- The stages of a configuration. -/
def stagesOf : List Yaml :=
  match config.get "stage_args".toList (.list []) with
  | .ok stageArgs => (stageArgs.iter.toOption).getD []
  | .error _ => []

/-- The entries under a key of a stage. -/
def entriesUnder (stage : Yaml) (key : List Char) : List (Yaml × Yaml) :=
  match stage.get key (.dict []) with
  | .ok connectors => (connectors.items.toOption).getD []
  | .error _ => []

/-- The entries of `runtime.edges`. -/
def runtimeEdges : List Yaml :=
  match config.get "runtime".toList (.dict []) with
  | .ok runtimeConfig =>
    match runtimeConfig.get "edges".toList (.list []) with
    | .ok (.list es) => es
    | _ => []
  | .error _ => []

/-- The edges that the stages configure connectors for. -/
inductive ConnectorNames : StageEdge → Prop
  | input {stage connRef : Yaml} {id name : List Char} (hstage : stage ∈ stagesOf config)
      (hid : stageIdOf repr stage = .ok id)
      (hentry : (.str name, connRef) ∈ entriesUnder stage "input_connectors".toList) :
      ConnectorNames (removeAll fromStage name, id)
  | output {stage connRef : Yaml} {id name : List Char} (hstage : stage ∈ stagesOf config)
      (hid : stageIdOf repr stage = .ok id)
      (hentry : (.str name, connRef) ∈ entriesUnder stage "output_connectors".toList) :
      ConnectorNames (id, removeAll toStage name)

/-- The edges that `runtime.edges` and the sources of the stages name. -/
inductive FlowNames : StageEdge → Prop
  | runtime {edge a b : Yaml} (hedge : edge ∈ runtimeEdges config)
      (hfrom : edge.get "from".toList .null = .ok a) (hto : edge.get "to".toList .null = .ok b)
      (ha : a ≠ .null) (hb : b ≠ .null) : FlowNames (a.text repr, b.text repr)
  | source {stage source a : Yaml} {sources : List Yaml} {id : List Char}
      (hstage : stage ∈ stagesOf config) (hid : stageIdOf repr stage = .ok id)
      (hsource : stage.get "engine_input_source".toList (.list []) = .ok source)
      (hiter : source.iter = .ok sources) (ha : a ∈ sources) : FlowNames (a.text repr, id)

/-- The explicit connectors of a configuration. -/
def explicitOf : List (StageEdge × ConnectorSpec) :=
  match readConfig repr config with
  | .ok (_, _, entries) => explicitConnectors entries
  | .error _ => []

/-- Every edge has a connector, an explicit one is kept, and the stage at the end of an edge builds
the same one as the orchestrator. -/
structure ConnectorsRight (connectors : List (StageEdge × ConnectorSpec)) : Prop where
  complete : ∀ e, ConnectorNames repr config e ∨ FlowNames repr config e →
    (connectors.lookup e).isSome
  explicit_kept : ∀ e spec, (explicitOf repr config).lookup e = some spec →
    connectors.lookup e = some spec
  symmetric : ∀ a b spec, connectors.lookup (a, b) = some spec →
    (buildStageConnectors b (getConnectorsConfigForStage connectors b)).lookup (a, b) = some spec

/-- A configuration with stages, mappings as `runtime.edges`, sources that can be iterated over, and
no sender with `from_stage_` in its id. -/
structure PlainConfig : Prop where
  stages : stagesOf config ≠ []
  edges : ∀ edge ∈ runtimeEdges config, ∃ entries, edge = .dict entries
  sources : ∀ stage ∈ stagesOf config, ∀ source,
    stage.get "engine_input_source".toList (.list []) = .ok source →
      ∃ sources, source.iter = .ok sources
  senders : ∀ e, ConnectorNames repr config e ∨ FlowNames repr config e → ¬ fromStage <:+: e.1

end Specification

/-! ## The edges that have a connector -/

section Keys

variable {repr : Yaml → List Char} {config : Yaml} {connectors : List (StageEdge × ConnectorSpec)}
  {threshold : ℕ}

/-- Setting entries one after the other keeps keys unique and adds those of the entries. -/
lemma nodup_foldl_set (entries d : List (StageEdge × ConnectorSpec)) (hd : (keys d).Nodup) :
    (keys (entries.foldl (fun d e => set d e.1 e.2) d)).Nodup ∧
      ∀ e, e ∈ keys (entries.foldl (fun d e => set d e.1 e.2) d) ↔
        e ∈ keys d ∨ e ∈ entries.map Prod.fst := by
  induction entries generalizing d with
  | nil => exact ⟨hd, fun e => by simp⟩
  | cons x entries ih =>
    obtain ⟨hnodup, hkeys⟩ := ih (set d x.1 x.2) (nodup_keys_set hd _ _)
    refine ⟨hnodup, fun e => ?_⟩
    rw [foldl_cons, hkeys, mem_keys_set, map_cons, mem_cons]
    grind

/-- The automatic connectors: no connector is replaced, and every edge that is come to has one. -/
lemma foldl_autoConnector (threshold : ℕ) (edges : List StageEdge)
    (d : List (StageEdge × ConnectorSpec)) (hd : (keys d).Nodup) :
    (keys (edges.foldl (autoConnector threshold) d)).Nodup ∧
      (∀ e, e ∈ keys (edges.foldl (autoConnector threshold) d) ↔ e ∈ keys d ∨ e ∈ edges) ∧
      ∀ e spec, (e, spec) ∈ d → (e, spec) ∈ edges.foldl (autoConnector threshold) d := by
  induction edges generalizing d with
  | nil => exact ⟨hd, fun e => by simp, fun _ _ h => h⟩
  | cons x edges ih =>
    rw [foldl_cons, autoConnector]
    split
    · next hx =>
      obtain ⟨hnodup, hkeys, hkept⟩ := ih d hd
      refine ⟨hnodup, fun e => ?_, hkept⟩
      rw [hkeys, mem_cons]
      grind
    · next hx =>
      obtain ⟨hnodup, hkeys, hkept⟩ := ih (set d x (shmSpec threshold)) (nodup_keys_set hd _ _)
      refine ⟨hnodup, fun e => ?_, fun e spec he => hkept e spec (mem_set_of_ne he ?_)⟩
      · rw [hkeys, mem_keys_set, mem_cons]
        grind
      · rintro rfl
        exact hx (mem_map.mpr ⟨(_, spec), he, rfl⟩)

/-- What the loader returns. -/
lemma loadOmniTransferConfig_ok
    (hload : loadOmniTransferConfig repr threshold config = .ok connectors) :
    ∃ runtimeConfig stages entries, readConfig repr config = .ok (runtimeConfig, stages, entries) ∧
      (keys connectors).Nodup ∧
      (∀ e, e ∈ keys connectors ↔
        e ∈ entries.map Prod.fst ∨ e ∈ autoEdges repr runtimeConfig stages) ∧
      ∀ e spec, (e, spec) ∈ explicitConnectors entries → (e, spec) ∈ connectors := by
  rw [loadOmniTransferConfig] at hload
  cases hread : readConfig repr config with
  | error err =>
    rw [hread] at hload
    cases hload
  | ok read =>
    obtain ⟨runtimeConfig, stages, entries⟩ := read
    rw [hread] at hload
    obtain ⟨hexplicit, hexplicitKeys⟩ := nodup_foldl_set entries [] nodup_nil
    obtain ⟨hnodup, hkeys, hkept⟩ := foldl_autoConnector threshold
      (autoEdges repr runtimeConfig stages) (explicitConnectors entries) hexplicit
    dsimp only [bind, Except.bind] at hload
    split at hload
    · cases hload
    cases hload
    refine ⟨runtimeConfig, stages, entries, rfl, hnodup, fun e => ?_, hkept⟩
    rw [hkeys, explicitConnectors, hexplicitKeys]
    simp [OrderedDict.keys]

variable {α β : Type} {runtimeConfig : Yaml} {stages : List Yaml}
  {entries : List (StageEdge × ConnectorSpec)} {e : StageEdge}

/-- A result comes from a result. -/
lemma except_bind_ok {ε : Type} {x : Except ε α} {f : α → Except ε β} {b : β}
    (h : (x >>= f) = .ok b) : ∃ a, x = .ok a ∧ f a = .ok b := by
  cases x with
  | error e => cases h
  | ok a => exact ⟨a, rfl, h⟩

/-- The results of a loop that succeeds are those of its elements. -/
lemma mapM_ok {ε : Type} {f : α → Except ε β} {as : List α} {bs : List β}
    (h : as.mapM f = .ok bs) :
    (∀ a ∈ as, ∃ b ∈ bs, f a = .ok b) ∧ ∀ b ∈ bs, ∃ a ∈ as, f a = .ok b := by
  induction as generalizing bs with
  | nil =>
    cases h
    exact ⟨nofun, nofun⟩
  | cons x as ih =>
    rw [mapM_cons] at h
    obtain ⟨y, hy, h⟩ := except_bind_ok h
    obtain ⟨ys, hys, h⟩ := except_bind_ok h
    cases h
    obtain ⟨hleft, hright⟩ := ih hys
    simp only [mem_cons, exists_eq_or_imp, forall_eq_or_imp]
    exact ⟨⟨.inl hy, fun a ha => .inr (hleft a ha)⟩, .inl hy, fun b hb => .inr (hright b hb)⟩

/-- The edges that are named under a key of a stage, where each gets a connector. -/
lemma mem_connectorEntries {globalConnectors stage : Yaml} {key pattern : List Char}
    {edge : List Char → StageEdge} {own : List (StageEdge × ConnectorSpec)}
    (hown : connectorEntries globalConnectors stage key pattern edge = .ok own) :
    e ∈ own.map Prod.fst ↔ ∃ name connRef, (.str name, connRef) ∈ entriesUnder stage key ∧
      e = edge (removeAll pattern name) := by
  obtain ⟨connectors, hconnectors, hown⟩ := except_bind_ok hown
  obtain ⟨entries, hentries, hown⟩ := except_bind_ok hown
  have hunder : entriesUnder stage key = entries := by
    simp only [entriesUnder, hconnectors, hentries, Except.toOption, Option.getD_some]
  rw [hunder]
  constructor
  · intro he
    obtain ⟨x, hx, rfl⟩ := mem_map.mp he
    obtain ⟨⟨name, connRef⟩, hmem, hok⟩ := (mapM_ok hown).2 x hx
    obtain ⟨spec, -, hok⟩ := except_bind_ok hok
    cases name with
    | str s =>
      cases hok
      exact ⟨s, connRef, hmem, rfl⟩
    | null | bool | int | float | list | dict => cases hok
  · rintro ⟨name, connRef, hmem, rfl⟩
    obtain ⟨x, hx, hok⟩ := (mapM_ok hown).1 _ hmem
    obtain ⟨spec, -, hok⟩ := except_bind_ok hok
    cases hok
    exact mem_map_of_mem hx

/-- The connectors of a stage are those of its inputs and of its outputs. -/
lemma stageEntries_ok {globals stage : Yaml} {own : List (StageEdge × ConnectorSpec)}
    (hown : stageEntries repr globals stage = .ok own) :
    ∃ id inputs outputs, stageIdOf repr stage = .ok id ∧
      connectorEntries globals stage "input_connectors".toList fromStage (fun a => (a, id)) =
        .ok inputs ∧
      connectorEntries globals stage "output_connectors".toList toStage (fun b => (id, b)) =
        .ok outputs ∧ own = inputs ++ outputs := by
  obtain ⟨id, hid, hown⟩ := except_bind_ok hown
  obtain ⟨inputs, hinputs, hown⟩ := except_bind_ok hown
  obtain ⟨outputs, houtputs, hown⟩ := except_bind_ok hown
  exact ⟨id, inputs, outputs, hid, hinputs, houtputs, (Except.ok.inj hown).symm⟩

/-- A loop in which no exception is raised comes to everything. -/
lemma untilError_of_ok {f : α → Except LoadError (List β)} {as : List α}
    (h : ∀ a ∈ as, ∃ bs, f a = .ok bs) :
    (untilError f as).2 = true ∧
      ∀ b, b ∈ (untilError f as).1 ↔ ∃ a ∈ as, ∃ bs, f a = .ok bs ∧ b ∈ bs := by
  induction as with
  | nil => exact ⟨rfl, fun b => by simp [untilError]⟩
  | cons x as ih =>
    obtain ⟨bs, hbs⟩ := h x mem_cons_self
    obtain ⟨hend, hmem⟩ := ih fun a ha => h a (mem_cons_of_mem x ha)
    simp [untilError, hbs, hend, hmem]

/-- A mapping names an edge if it has two ends. -/
lemma runtimeEdge_dict (repr : Yaml → List Char) (items : List (Yaml × Yaml)) :
    ∃ edges, runtimeEdge repr (.dict items) = .ok edges ∧ ∀ e, e ∈ edges ↔
      ∃ a b, (Yaml.dict items).get "from".toList .null = .ok a ∧
        (Yaml.dict items).get "to".toList .null = .ok b ∧ a ≠ .null ∧ b ≠ .null ∧
        e = (a.text repr, b.text repr) := by
  simp only [runtimeEdge, Yaml.get, bind, Except.bind, Except.ok.injEq]
  generalize (Yaml.find items "from".toList).getD .null = a
  generalize (Yaml.find items "to".toList).getD .null = b
  cases a <;> cases b <;> simp

/-- The edges of a stage whose sources can be iterated over. -/
lemma sourceEdges_ok {stage source : Yaml} {sources : List Yaml} {id : List Char}
    (hid : stageIdOf repr stage = .ok id)
    (hsource : stage.get "engine_input_source".toList (.list []) = .ok source)
    (hiter : source.iter = .ok sources) :
    sourceEdges repr stage = .ok (sources.map fun a => (a.text repr, id)) := by
  rw [sourceEdges, hid, hsource]
  change source.iter >>= _ = _
  rw [hiter]
  rfl

section

variable (hread : readConfig repr config = .ok (runtimeConfig, stages, entries))
include hread

/-- What has been read: every stage has an id, and the explicit connectors are those of the
stages. -/
lemma readConfig_ok :
    config.get "runtime".toList (.dict []) = .ok runtimeConfig ∧
      (∃ edges, runtimeConfig.get "edges".toList (.list []) = .ok edges) ∧
      stagesOf config = stages ∧ ∃ globalConnectors,
        (∀ stage ∈ stages, ∃ own ⊆ entries, stageEntries repr globalConnectors stage = .ok own) ∧
        ∀ x ∈ entries, ∃ stage ∈ stages, ∃ own,
          stageEntries repr globalConnectors stage = .ok own ∧ x ∈ own := by
  obtain ⟨runtime, hruntime, hread⟩ := except_bind_ok hread
  obtain ⟨globals, hglobals, hread⟩ := except_bind_ok hread
  obtain ⟨stageArgs, hargs, hread⟩ := except_bind_ok hread
  obtain ⟨iterated, hiter, hread⟩ := except_bind_ok hread
  obtain ⟨lists, hlists, hread⟩ := except_bind_ok hread
  have hparts := Except.ok.inj hread
  simp only [Prod.mk.injEq] at hparts
  obtain ⟨rfl, rfl, rfl⟩ := hparts
  obtain ⟨hleft, hright⟩ := mapM_ok hlists
  refine ⟨hruntime, ?_, ?_, globals, fun stage hstage => ?_, fun x hx => ?_⟩
  · cases runtime with
    | dict entries => exact ⟨_, rfl⟩
    | null | bool | int | float | str | list => cases hglobals
  · rw [stagesOf, hargs]
    simp only [hiter, Except.toOption, Option.getD_some]
  · obtain ⟨own, hown, hok⟩ := hleft stage hstage
    exact ⟨own, fun x hx => mem_flatten.mpr ⟨own, hown, hx⟩, hok⟩
  · obtain ⟨own, hown, hx⟩ := mem_flatten.mp hx
    obtain ⟨stage, hstage, hok⟩ := hright own hown
    exact ⟨stage, hstage, own, hok, hx⟩

/-- The edges with an explicit connector are those that the stages name. -/
lemma mem_entries_iff : e ∈ entries.map Prod.fst ↔ ConnectorNames repr config e := by
  obtain ⟨-, -, rfl, globals, hstages, hentries⟩ := readConfig_ok hread
  constructor
  · intro he
    obtain ⟨x, hx, rfl⟩ := mem_map.mp he
    obtain ⟨stage, hstage, own, hown, hx⟩ := hentries x hx
    obtain ⟨id, inputs, outputs, hid, hinputs, houtputs, rfl⟩ := stageEntries_ok hown
    rcases mem_append.mp hx with hx | hx
    · obtain ⟨name, connRef, hentry, heq⟩ :=
        (mem_connectorEntries hinputs).mp (mem_map_of_mem hx)
      exact heq ▸ .input hstage hid hentry
    · obtain ⟨name, connRef, hentry, heq⟩ :=
        (mem_connectorEntries houtputs).mp (mem_map_of_mem hx)
      exact heq ▸ .output hstage hid hentry
  · intro he
    cases he with
    | input hstage hid hentry =>
      obtain ⟨own, hsub, hown⟩ := hstages _ hstage
      obtain ⟨id, inputs, outputs, hid', hinputs, -, rfl⟩ := stageEntries_ok hown
      cases hid.symm.trans hid'
      exact map_subset _ (fun x hx => hsub (mem_append_left _ hx))
        ((mem_connectorEntries hinputs).mpr ⟨_, _, hentry, rfl⟩)
    | output hstage hid hentry =>
      obtain ⟨own, hsub, hown⟩ := hstages _ hstage
      obtain ⟨id, inputs, outputs, hid', -, houtputs, rfl⟩ := stageEntries_ok hown
      cases hid.symm.trans hid'
      exact map_subset _ (fun x hx => hsub (mem_append_right _ hx))
        ((mem_connectorEntries houtputs).mpr ⟨_, _, hentry, rfl⟩)

/-! ## The automatic configuration -/

/-- In a plain configuration, every stage has an id and sources. -/
lemma exists_sources (h : PlainConfig repr config) {stage : Yaml} (hstage : stage ∈ stages) :
    ∃ id source sources, stageIdOf repr stage = .ok id ∧
      stage.get "engine_input_source".toList (.list []) = .ok source ∧
      source.iter = .ok sources := by
  obtain ⟨-, -, rfl, globals, hstages, -⟩ := readConfig_ok hread
  obtain ⟨own, -, hown⟩ := hstages stage hstage
  obtain ⟨id, hid, -⟩ := except_bind_ok hown
  obtain ⟨source, hsource⟩ : ∃ source,
      stage.get "engine_input_source".toList (.list []) = .ok source := by
    obtain ⟨value, hvalue, -⟩ := except_bind_ok hid
    cases stage with
    | dict entries => exact ⟨_, rfl⟩
    | null | bool | int | float | str | list => cases hvalue
  obtain ⟨sources, hiter⟩ := h.sources stage hstage source hsource
  exact ⟨id, source, sources, hid, hsource, hiter⟩

/-- If no entry of `runtime.edges` raises, the block comes to the sources. -/
lemma autoEdges_eq (hne : stagesOf config ≠ [])
    (hdone : (untilError (runtimeEdge repr) (runtimeEdges config)).2 = true) :
    autoEdges repr runtimeConfig (stagesOf config) =
      (untilError (runtimeEdge repr) (runtimeEdges config)).1 ++
        (untilError (sourceEdges repr) (stagesOf config)).1 := by
  obtain ⟨hruntime, ⟨edges, hedges⟩, -⟩ := readConfig_ok hread
  rw [autoEdges, if_neg (by simpa using hne)]
  rw [runtimeEdges, hruntime] at hdone ⊢
  simp only [hedges] at hdone ⊢
  cases edges with
  | list es => simp only [hdone, if_true]
  | null | bool | int | float | str | dict => rfl

/-- A plain configuration gets the edges that `runtime.edges` and the sources name. -/
lemma mem_autoEdges_iff (h : PlainConfig repr config) :
    e ∈ autoEdges repr runtimeConfig stages ↔ FlowNames repr config e := by
  have hsource {stage : Yaml} (hstage : stage ∈ stages) := exists_sources hread h hstage
  obtain ⟨-, -, rfl, -⟩ := readConfig_ok hread
  -- No loop is left by an exception.
  have hruntimeOk (edge : Yaml) (hedge : edge ∈ runtimeEdges config) :
      ∃ es, runtimeEdge repr edge = .ok es := by
    obtain ⟨items, rfl⟩ := h.edges edge hedge
    obtain ⟨es, hes, -⟩ := runtimeEdge_dict repr items
    exact ⟨es, hes⟩
  have hsourceOk (stage : Yaml) (hstage : stage ∈ stagesOf config) :
      ∃ es, sourceEdges repr stage = .ok es := by
    obtain ⟨id, source, sources, hid, hget, hiter⟩ := hsource hstage
    exact ⟨_, sourceEdges_ok hid hget hiter⟩
  obtain ⟨hdone, hruntimeMem⟩ := untilError_of_ok hruntimeOk
  obtain ⟨-, hsourceMem⟩ := untilError_of_ok hsourceOk
  rw [autoEdges_eq hread h.stages hdone, mem_append, hruntimeMem, hsourceMem]
  constructor
  · rintro (⟨edge, hedge, es, hes, he⟩ | ⟨stage, hstage, es, hes, he⟩)
    · obtain ⟨items, rfl⟩ := h.edges edge hedge
      obtain ⟨es', hes', hends⟩ := runtimeEdge_dict repr items
      cases hes.symm.trans hes'
      obtain ⟨a, b, hfrom, hto, ha, hb, rfl⟩ := (hends e).mp he
      exact .runtime hedge hfrom hto ha hb
    · obtain ⟨id, source, sources, hid, hget, hiter⟩ := hsource hstage
      cases hes.symm.trans (sourceEdges_ok hid hget hiter)
      obtain ⟨a, ha, rfl⟩ := mem_map.mp he
      exact .source hstage hid hget hiter ha
  · intro he
    cases he with
    | runtime hedge hfrom hto ha hb =>
      obtain ⟨items, rfl⟩ := h.edges _ hedge
      obtain ⟨es, hes, hends⟩ := runtimeEdge_dict repr items
      exact .inl ⟨_, hedge, es, hes, (hends _).mpr ⟨_, _, hfrom, hto, ha, hb, rfl⟩⟩
    | source hstage hid hget hiter ha =>
      exact .inr ⟨_, hstage, _, sourceEdges_ok hid hget hiter, mem_map_of_mem ha⟩

end

/-! ## The connectors of a stage -/

omit config threshold in
/-- A loop that sets entries under a condition. -/
lemma foldl_set_if {κ ν : Type} [DecidableEq κ] (p : α → Bool) (k : α → κ) (v : α → ν) (xs : List α)
    (d : List (κ × ν)) :
    xs.foldl (fun d x => if p x then set d (k x) (v x) else d) d =
      ((xs.filter p).map fun x => (k x, v x)).foldl (fun d e => set d e.1 e.2) d := by
  induction xs generalizing d with
  | nil => rfl
  | cons x xs ih =>
    rw [foldl_cons, ih, filter_cons]
    by_cases hx : p x = true
    · rw [if_pos hx, if_pos hx, map_cons, foldl_cons]
    · rw [if_neg hx, if_neg hx]

section

variable (hnodup : (keys connectors).Nodup)
include hnodup

/-- The incoming edges of a stage under names that tell them apart. -/
lemma nodup_keys_incoming {κ : Type} (b : List Char) (name : StageEdge → κ)
    (hname : ∀ a ∈ keys connectors, ∀ a' ∈ keys connectors,
      a.2 = b → a'.2 = b → name a = name a' → a = a') :
    (keys ((connectors.filter (·.1.2 = b)).map fun e => (name e.1, e.2))).Nodup := by
  have hsub : (keys (connectors.filter (·.1.2 = b))).Nodup :=
    hnodup.sublist (filter_sublist.map Prod.fst)
  have hkey (a : StageEdge) (ha : a ∈ keys (connectors.filter (·.1.2 = b))) :
      a ∈ keys connectors ∧ a.2 = b := by
    obtain ⟨e, he, rfl⟩ := mem_map.mp ha
    obtain ⟨he, hb⟩ := mem_filter.mp he
    exact ⟨mem_map_of_mem he, of_decide_eq_true hb⟩
  have hmap := hsub.map_on fun a ha a' ha' => hname a (hkey a ha).1 a' (hkey a' ha').1
    (hkey a ha).2 (hkey a' ha').2
  rw [OrderedDict.keys, map_map] at hmap
  rwa [OrderedDict.keys, map_map]

/-- The entries that a stage is given. -/
lemma getConnectorsConfigForStage_eq (b : List Char) :
    getConnectorsConfigForStage connectors b =
      (connectors.filter (·.1.2 = b)).map fun e => (fromStage ++ e.1.1, e.2) := by
  have hset := foldl_set_if (fun e : StageEdge × ConnectorSpec => decide (e.1.2 = b))
    (fun e => fromStage ++ e.1.1) Prod.snd connectors []
  simp only [decide_eq_true_eq] at hset
  rw [getConnectorsConfigForStage, hset, foldl_set_of_nodup, nil_append]
  rw [nil_append]
  refine nodup_keys_incoming hnodup b (fun a => fromStage ++ a.1) fun a _ a' _ hb hb' heq => ?_
  exact Prod.ext (append_cancel_left heq) (hb.trans hb'.symm)

/-- The connectors that a stage builds, each under what is left of the name of the sender. -/
lemma buildStageConnectors_eq (b : List Char) :
    buildStageConnectors b (getConnectorsConfigForStage connectors b) =
      ((connectors.filter (·.1.2 = b)).map fun e => ((removeAll fromStage e.1.1, b), e.2)).foldl
        (fun d e => set d e.1 e.2) [] := by
  have hmarked (a : List Char) : fromStage.isPrefixOf (fromStage ++ a) = true :=
    isPrefixOf_iff_prefix.mpr (prefix_append _ _)
  have hremove (a : List Char) : removeAll fromStage (fromStage ++ a) = removeAll fromStage a :=
    removeAll_append (by decide) a
  rw [getConnectorsConfigForStage_eq hnodup, buildStageConnectors, foldl_map, foldl_map]
  simp only [hmarked, hremove, if_true]

/-- Where no sender has the marker in its name, a stage builds the connectors of its incoming
edges. -/
lemma lookup_buildStageConnectors (hplain : ∀ e ∈ keys connectors, removeAll fromStage e.1 = e.1)
    {a b : List Char} {spec : ConnectorSpec} (hspec : connectors.lookup (a, b) = some spec) :
    (buildStageConnectors b (getConnectorsConfigForStage connectors b)).lookup (a, b) =
      some spec := by
  have hmem := mem_of_lookup hspec
  have hkeys := nodup_keys_incoming hnodup b (fun e => (removeAll fromStage e.1, b))
    fun e he e' he' hb hb' heq => by
      rw [hplain e he, hplain e' he'] at heq
      exact Prod.ext (Prod.mk.inj heq).1 (hb.trans hb'.symm)
  rw [buildStageConnectors_eq hnodup, foldl_set_of_nodup (by rwa [nil_append]),
    nil_append]
  refine lookup_of_mem hkeys (mem_map.mpr ⟨((a, b), spec), ?_, ?_⟩)
  · exact mem_filter.mpr ⟨hmem, decide_eq_true rfl⟩
  · rw [hplain (a, b) (mem_map_of_mem hmem)]

end

/-! ## The configuration -/

end Keys

/-- The decimal digits of a number. -/
def digitsOf : Yaml → List Char
  | .int n => Nat.toDigits 10 n.toNat
  | _ => []

/-- Three stages, each fed by the one before, with a connector configured for the first edge. -/
def threeStageArgs : List Yaml :=
  [.dict [(.str "stage_id".toList, .int 0)],
    .dict [(.str "stage_id".toList, .int 1),
      (.str "engine_input_source".toList, .list [.int 0]),
      (.str "input_connectors".toList, .dict [(.str "from_stage_0".toList,
        .dict [(.str "name".toList, .str "MooncakeConnector".toList)])])],
    .dict [(.str "stage_id".toList, .int 2),
      (.str "engine_input_source".toList, .list [.int 1])]]

def threeStages : Yaml := .dict [(.str "stage_args".toList, .list threeStageArgs)]

/-- The edges that the three stages name. -/
lemma mem_of_named_threeStages {e : StageEdge}
    (he : ConnectorNames digitsOf threeStages e ∨ FlowNames digitsOf threeStages e) :
    e ∈ [(['0'], ['1']), (['1'], ['2'])] := by
  obtain he | he := he
  · have hread : readConfig digitsOf threeStages = .ok (.dict [], threeStageArgs,
      [((['0'], ['1']), ⟨.str "MooncakeConnector".toList, .dict []⟩)]) := rfl
    obtain rfl : e = (['0'], ['1']) := by simpa using (mem_entries_iff hread).mpr he
    exact mem_cons_self
  · cases he with
    | runtime hedge => cases hedge
    | @source stage source a sources id hstage hid hsource hiter ha =>
      have hedges := sourceEdges_ok hid hsource hiter
      have hmem : (a.text digitsOf, id) ∈ sources.map fun a => (a.text digitsOf, id) :=
        mem_map_of_mem ha
      have hstage : stage ∈ threeStageArgs := hstage
      simp only [threeStageArgs, mem_cons, not_mem_nil, or_false] at hstage
      obtain rfl | rfl | rfl := hstage
      · rw [← Except.ok.inj hedges] at hmem
        cases hmem
      · rw [← Except.ok.inj hedges] at hmem
        exact mem_cons.mpr (.inl (mem_singleton.mp hmem))
      · rw [← Except.ok.inj hedges] at hmem
        exact mem_cons_of_mem _ hmem

/-- No part of the loader stumbles over `threeStages`. -/
lemma plainConfig_threeStages : PlainConfig digitsOf threeStages where
  stages := by decide
  edges := nofun
  sources stage hstage source hsource := by
    have hstage : stage ∈ threeStageArgs := hstage
    simp only [threeStageArgs, mem_cons, not_mem_nil, or_false] at hstage
    obtain rfl | rfl | rfl := hstage <;> cases hsource <;> exact ⟨_, rfl⟩
  senders e he := by
    have hplain : ∀ e ∈ [((['0'], ['1']) : StageEdge), (['1'], ['2'])], ¬ fromStage <:+: e.1 := by
      decide
    exact hplain e (mem_of_named_threeStages he)

/-- The second stage has no source, written as `null`: the third one gets no connector. -/
def nullSource : Yaml :=
  .dict [(.str "stage_args".toList, .list [
    .dict [(.str "stage_id".toList, .int 0)],
    .dict [(.str "stage_id".toList, .int 1), (.str "engine_input_source".toList, .null)],
    .dict [(.str "stage_id".toList, .int 2),
      (.str "engine_input_source".toList, .list [.int 1])]])]

end OmniStreaming
