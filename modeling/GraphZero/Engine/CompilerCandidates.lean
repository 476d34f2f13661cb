import GraphZero.Engine.Refs
import GraphZero.Foundation.BigEndian
import GraphZero.Foundation.FrameLog
import GraphZero.Foundation.Table

/-!
# Candidate groups of the compiler engine

The compiler engine hides the candidates of a native engine behind groups: a
group is exposed as its first member, applied as a whole and released as a
whole.  The native engine is a separate library, so it is a parameter here.
-/

namespace GraphZero.Engine

open GraphZero.Foundation

inductive CompilerCandidateMode where
  | sitewise
  | hybridV1
  | hybridProviderV1
  | hybridNvidiaV1
  | hybridNvidiaV2
  | endToEndV1
  | endToEndNvidiaV1
  | endToEndNvidiaV2
  | endToEndNvidiaV3
  | endToEndNvidiaV4
  | endToEndNvidiaV5
  deriving DecidableEq

/-- An operation, a value or a scope of the compiled module, by its index. -/
inductive BoundObject where
  | op (node : Nat)
  | value (value : Nat)
  | component (component : Nat)
  | body (body : Nat)
  deriving DecidableEq

inductive ScopeId where
  | component (component : Nat)
  | body (body : Nat)

structure MatchSite where
  scope : ScopeId
  bindings : List BoundObject

inductive CompilerCandidateBatchPolicy where
  | singleton
  | independent
  | disjointBindings
  deriving DecidableEq

structure CandidateView where
  kind : Nat
  definition : String
  batchPolicy : CompilerCandidateBatchPolicy
  site : MatchSite

/-- `graph[node]`. -/
structure NodeView where
  op : Nat
  operands : List (List Nat)
  results : List (List Nat)
  bodies : Nat
  parent : ScopeId

structure CompilerStateView where
  nodeAttributeFingerprints : List (List UInt8)
  canonicalNodeOrder : List Nat
  valueTypeFingerprints : List (List UInt8)
  canonicalValueOrder : List Nat
  node : Nat → NodeView

inductive NativeError where
  | unknownState
  | releasedState
  | staleState
  | unknownCandidate
  | releasedCandidate
  | staleCandidate
  | other (message : String)

/-- The native engine, with states `σ`, graph handles `γ` and candidate handles
`κ`. -/
structure NativeEngine (σ γ κ : Type) where
  stateHash : σ → γ → Except NativeError GraphHash
  stateView : σ → γ → Except NativeError CompilerStateView
  candidateView : σ → κ → Except NativeError CandidateView
  candidateHash : σ → κ → Except NativeError CandidateHash
  candidates : σ → γ → Option Nat → Except NativeError (List κ) × σ
  release : σ → List γ → List κ → Except NativeError Unit × σ

def nativeEngineErrorCode : Nat := 1

def nativeError : NativeError → EngineError
  | .unknownState | .releasedState | .staleState => .unknownGraph none
  | .unknownCandidate | .releasedCandidate | .staleCandidate => .unknownCandidate none
  | .other message => .internal nativeEngineErrorCode message

/-! ### Which candidates share a group -/

inductive Grouping where
  | sitewise
  | allSites
  | equivalentSites

def endToEndEquivalentFusionIdsV1 : List String :=
  ["graph.fuse_matmul_activation", "graph.canonicalize_linear_matmul_affine",
    "graph.fuse_matmul_bias_affine",
    "algorithm.fuse_rmsnorm.self_multiply",
    "algorithm.fuse_rmsnorm.self_multiply_leading_cast",
    "algorithm.fuse_rmsnorm.self_multiply_trailing_cast",
    "algorithm.fuse_rmsnorm.self_multiply_leading_trailing_cast",
    "algorithm.fuse_rmsnorm.power_two",
    "algorithm.fuse_rmsnorm.power_two_leading_cast",
    "algorithm.fuse_rmsnorm.power_two_trailing_cast",
    "algorithm.fuse_rmsnorm.power_two_leading_trailing_cast",
    "algorithm.fuse_gemma_rmsnorm.self_multiply",
    "algorithm.fuse_gemma_rmsnorm.self_multiply_leading_cast",
    "algorithm.fuse_gemma_rmsnorm.self_multiply_trailing_cast",
    "algorithm.fuse_gemma_rmsnorm.self_multiply_leading_trailing_cast",
    "graph.fuse_residual_add_rmsnorm",
    "graph.fuse_gemma_weight_rmsnorm",
    "algorithm.fuse_silu_mul_swiglu"]

def endToEndGlobalCleanupIdsV1 : List String :=
  ["graph.drop_empty_concat_inputs", "graph.alias_single_input_concat",
    "view.bypass_noop_materialize_copy",
    "view.prove_materialized_view",
    "view.bypass_identity_alias",
    "graph.remove_dead_pure_leaf"]

/-- The transforms that bind one operation and are batched in every grouped
mode. -/
def independentIds : List String :=
  ["view.bypass_noop_materialize_copy", "view.canonicalize_identity_view",
    "nvidia.cublas.matmul.nn",
    "nvidia.cublas.matmul.nt",
    "nvidia.cublas.matmul.tn",
    "nvidia.cublas.matmul.tt",
    "nvidia.cublaslt.matmul_affine.identity.sm110.heuristic",
    "nvidia.native_cuda.arange",
    "nvidia.native_cuda.concat",
    "nvidia.native_cuda.embedding",
    "nvidia.native_cuda.materialize_copy",
    "nvidia.native_cuda.pointwise.cast",
    "nvidia.native_cuda.pointwise.elementwise",
    "nvidia.native_cuda.reduce",
    "nvidia.native_cuda.sdpa.bf16"]

def CompilerCandidateMode.endToEnd : CompilerCandidateMode → Bool
  | .endToEndV1 | .endToEndNvidiaV1 | .endToEndNvidiaV2 | .endToEndNvidiaV3
  | .endToEndNvidiaV4 | .endToEndNvidiaV5 => true
  | _ => false

def grouping (candidateMode : CompilerCandidateMode) (definition : String) : Grouping :=
  if candidateMode.endToEnd && endToEndEquivalentFusionIdsV1.contains definition then
    .equivalentSites
  else if candidateMode.endToEnd && endToEndGlobalCleanupIdsV1.contains definition then
    .allSites
  else if candidateMode = .endToEndNvidiaV5 ∧ "nvidia.".toList.isPrefixOf definition.toList then
    .equivalentSites
  else if (candidateMode = .hybridNvidiaV2 ∨ candidateMode.endToEnd) ∧
      definition = "algorithm.fuse_decomposed_rope" then
    .allSites
  else if independentIds.contains definition then
    .allSites
  else if definition = "algorithm.attention_form" then
    .equivalentSites
  else
    .sitewise

abbrev SiteSignature := BitVec 256

inductive GroupKey where
  | allSites (kind : Nat)
  | equivalentSites (kind : Nat) (signature : SiteSignature)
  deriving DecidableEq

def inconsistent (message : String) : EngineError :=
  .internal nativeEngineErrorCode message

/-- `indexes(values).get(value)`: the last position of a value. -/
def lastIndex (values : List Nat) (value : Nat) : Option Nat :=
  (values.zipIdx.reverse.find? (·.1 = value)).map Prod.snd

def updateLen (value : Nat) : List UInt8 :=
  toLeBytes 8 value

namespace SiteSignatures

/-- `SiteSignatures::new`. -/
def new (state : CompilerStateView) : EngineResult CompilerStateView :=
  if state.nodeAttributeFingerprints.length ≠ state.canonicalNodeOrder.length ∨
      state.valueTypeFingerprints.length ≠ state.canonicalValueOrder.length then
    throw (inconsistent "compiler semantic fingerprint order is inconsistent")
  else
    .ok state

variable (state : CompilerStateView)

def valueFingerprint (value : Nat) : EngineResult (List UInt8) :=
  match lastIndex state.canonicalValueOrder value with
  | some index => .ok (state.valueTypeFingerprints.getD index [])
  | none => throw (inconsistent
      "compiler action value is absent from canonical state order")

def scopeTag : ScopeId → UInt8
  | .component _ => 0
  | .body _ => 1

def slotBytes (slots : List (List Nat)) : EngineResult (List UInt8) := do
  let parts ← slots.mapM fun values => do
    let fingerprints ← values.mapM (valueFingerprint state)
    return updateLen values.length ++ fingerprints.flatten
  return updateLen slots.length ++ parts.flatten

/-- The bytes that `hash_node` feeds to the hash. -/
def nodeBytes (node : Nat) : EngineResult (List UInt8) :=
  match lastIndex state.canonicalNodeOrder node with
  | none => throw (inconsistent
      "compiler action operation is absent from canonical state order")
  | some index => do
      let view := state.node node
      let operands ← slotBytes state view.operands
      let results ← slotBytes state view.results
      return [0] ++ updateLen view.op ++
        state.nodeAttributeFingerprints.getD index [] ++ operands ++ results ++
        updateLen view.bodies ++ [scopeTag view.parent]

def subjectBytes : BoundObject → EngineResult (List UInt8)
  | .op node => nodeBytes state node
  | .value value => do
      let fingerprint ← valueFingerprint state value
      return [1] ++ fingerprint
  | .component _ | .body _ => throw (inconsistent
      "equivalent-site batching does not support scope bindings")

/-- `SiteSignatures::for_site`. -/
def forSite (blake3 : List UInt8 → BitVec 256) (site : MatchSite) : EngineResult SiteSignature := do
  let subjects ← site.bindings.mapM (subjectBytes state)
  return blake3 ("gz-engine-compiler-equivalent-site-v1\x00".toUTF8.toList ++
    [scopeTag site.scope] ++ updateLen site.bindings.length ++ subjects.flatten)

end SiteSignatures

/-! ### Building the groups -/

variable {σ γ κ : Type}

structure PendingGroup (κ : Type) where
  kind : Nat
  definition : String
  subjects : List BoundObject
  members : List κ
  filled : members ≠ []
  claimedBindings : List BoundObject

namespace PendingGroup

def canAdd (group : PendingGroup κ) (batchPolicy : CompilerCandidateBatchPolicy)
    (bindings : List BoundObject) : Bool :=
  match batchPolicy with
  | .independent => true
  | .disjointBindings => bindings.all fun binding => !group.claimedBindings.contains binding
  | .singleton => false

def add (group : PendingGroup κ) (candidate : κ) (bindings : List BoundObject) : PendingGroup κ :=
  { group with
    members := group.members ++ [candidate]
    filled := List.append_ne_nil_of_right_ne_nil _ (List.cons_ne_nil _ _)
    claimedBindings := group.claimedBindings ++ bindings }

def start (candidate : κ) (view : CandidateView) : PendingGroup κ where
  kind := view.kind
  definition := view.definition
  subjects := view.site.bindings
  members := [candidate]
  filled := List.cons_ne_nil _ _
  claimedBindings := view.site.bindings

end PendingGroup

/-- A group is never empty: it is exposed as its first member. -/
structure CompilerCandidateGroup (κ : Type) where
  parentHash : GraphHash
  candidateHash : CandidateHash
  kind : Nat
  displayName : String
  subjects : List BoundObject
  members : List κ
  filled : members ≠ []

def CompilerCandidateGroup.representative (group : CompilerCandidateGroup κ) : κ :=
  group.members.head group.filled

def batchCandidateHash (blake3 : List UInt8 → BitVec 256) (parentHash : GraphHash)
    (actionSetHash : ActionSetHash) (memberHashes : List CandidateHash) :
    CandidateHash :=
  blake3 ("gz-engine-compiler-candidate-batch-v1\x00".toUTF8.toList ++
    toBeBytes 32 parentHash.toNat ++ toBeBytes 32 actionSetHash.toNat ++
    updateLen memberHashes.length ++
    memberHashes.flatMap fun hash => toBeBytes 32 hash.toNat)

/-- The groups so far, and the positions of the groups of each key. -/
structure Grouped (κ : Type) where
  groups : List (PendingGroup κ)
  grouped : Table GroupKey (List Nat)

/-- The key under which a candidate may share a group. -/
def groupKey (blake3 : List UInt8 → BitVec 256)
    (candidateMode : CompilerCandidateMode) (state : CompilerStateView)
    (view : CandidateView) : EngineResult (Option GroupKey) :=
  if view.batchPolicy = .singleton then .ok none
  else
    match grouping candidateMode view.definition with
    | .sitewise => .ok none
    | .allSites => .ok (some (.allSites view.kind))
    | .equivalentSites =>
      (SiteSignatures.forSite state blake3 view.site).map fun signature =>
        some (.equivalentSites view.kind signature)

/-- The first group of the key that can take the candidate. -/
def openGroup (grouped : Grouped κ) (key : GroupKey) (view : CandidateView) : Option Nat :=
  ((grouped.grouped.get? key).getD []).find? fun index =>
    (grouped.groups[index]?).any fun group =>
      group.canAdd view.batchPolicy view.site.bindings

/-- One round of the loop of `group_hybrid_candidates`. -/
def groupCandidate (native : NativeEngine σ γ κ)
    (blake3 : List UInt8 → BitVec 256) (candidateMode : CompilerCandidateMode)
    (state : σ) (view : CompilerStateView) (grouped : Grouped κ)
    (candidate : κ) : EngineResult (Grouped κ) := do
  let candidateView ← (native.candidateView state candidate).mapError nativeError
  let key ← groupKey blake3 candidateMode view candidateView
  match key with
  | none =>
    return { grouped with
      groups := grouped.groups ++ [.start candidate candidateView] }
  | some key =>
    match openGroup grouped key candidateView with
    | some index =>
      return { grouped with
        groups := grouped.groups.modify index fun group =>
          group.add candidate candidateView.site.bindings }
    | none =>
      return {
        groups := grouped.groups ++ [.start candidate candidateView]
        grouped := grouped.grouped.insert key
          ((grouped.grouped.get? key).getD [] ++ [grouped.groups.length]) }

def finishGroup (native : NativeEngine σ γ κ)
    (blake3 : List UInt8 → BitVec 256) (state : σ) (parentHash : GraphHash)
    (actionSetHash : ActionSetHash) (group : PendingGroup κ) :
    EngineResult (CompilerCandidateGroup κ) := do
  let memberHashes ← group.members.mapM fun candidate =>
    (native.candidateHash state candidate).mapError nativeError
  return {
    parentHash
    candidateHash :=
      match memberHashes with
      | [hash] => hash
      | hashes => batchCandidateHash blake3 parentHash actionSetHash hashes
    kind := group.kind
    displayName :=
      if group.members.length = 1 then group.definition
      else group.definition ++ " ×" ++ toString group.members.length
    subjects := group.subjects
    members := group.members
    filled := group.filled }

def groupHybridCandidates (native : NativeEngine σ γ κ)
    (blake3 : List UInt8 → BitVec 256) (state : σ) (graph : γ)
    (parentHash : GraphHash) (actionSetHash : ActionSetHash)
    (candidates : List κ) (candidateMode : CompilerCandidateMode) :
    EngineResult (List (CompilerCandidateGroup κ)) := do
  let view ← (native.stateView state graph).mapError nativeError
  let signatures ← SiteSignatures.new view
  let grouped ← candidates.foldlM
    (groupCandidate native blake3 candidateMode state signatures) ⟨[], ∅⟩
  grouped.groups.mapM (finishGroup native blake3 state parentHash actionSetHash)

/-- `CompilerEngine`, without what only measurement uses. -/
structure CompilerEngine (σ κ : Type) where
  native : σ
  actionSetHash : ActionSetHash
  candidateMode : CompilerCandidateMode
  candidateGroups : Table κ (CompilerCandidateGroup κ)

variable [DecidableEq κ]

namespace CompilerEngine

variable (native : NativeEngine σ γ κ) (blake3 : List UInt8 → BitVec 256)
  (engine : CompilerEngine σ κ)

/-- `hybrid_candidates`: what it returns, and the engine after it. -/
def hybridCandidates (graph : γ) (maxCandidates : Option Nat) :
    EngineResult (List κ) × CompilerEngine σ κ :=
  match native.stateHash engine.native graph with
  | .error error => (.error (nativeError error), engine)
  | .ok parentHash =>
    match native.candidates engine.native graph none with
    | (.error error, state) => (.error (nativeError error), { engine with native := state })
    | (.ok candidates, state) =>
      match groupHybridCandidates native blake3 state graph parentHash
          engine.actionSetHash candidates engine.candidateMode with
      | .error error =>
        match native.release state [] candidates with
        | (.error released, state) =>
          (.error (nativeError released), { engine with native := state })
        | (.ok _, state) => (.error error, { engine with native := state })
      | .ok groups =>
        let keep := min (maxCandidates.getD groups.length) groups.length
        let retained := groups.take keep
        match native.release state []
            ((groups.drop keep).flatMap CompilerCandidateGroup.members) with
        | (.error released, state) =>
          (.error (nativeError released), { engine with native := state })
        | (.ok _, state) =>
          (.ok (retained.map CompilerCandidateGroup.representative),
            { engine with
              native := state
              candidateGroups := retained.foldl (fun groups group =>
                groups.insert group.representative group) engine.candidateGroups })

def candidates (graph : γ) (maxCandidates : Option Nat) :
    EngineResult (List κ) × CompilerEngine σ κ :=
  if engine.candidateMode = .sitewise then
    match native.candidates engine.native graph maxCandidates with
    | (outcome, state) => (outcome.mapError nativeError, { engine with native := state })
  else
    hybridCandidates native blake3 engine graph maxCandidates

/-- The members of the groups to release; a repeated or unknown candidate is
refused. -/
def releaseMembers (groups : Table κ (CompilerCandidateGroup κ)) :
    List κ → List κ → EngineResult (List κ)
  | _, [] => .ok []
  | seen, candidate :: rest =>
    if candidate ∈ seen then
      throw (.unknownCandidate none)
    else
      match groups.get? candidate with
      | none => throw (.unknownCandidate none)
      | some group => do
          let members ← releaseMembers groups (candidate :: seen) rest
          return group.members ++ members

def release (graphs : List γ) (candidates : List κ) : EngineResult Unit × CompilerEngine σ κ :=
  if engine.candidateMode = .sitewise then
    match native.release engine.native graphs candidates with
    | (outcome, state) => (outcome.mapError nativeError, { engine with native := state })
  else
    match releaseMembers engine.candidateGroups [] candidates with
    | .error error => (.error error, engine)
    | .ok members =>
      match native.release engine.native graphs members with
      | (.error error, state) => (.error (nativeError error), { engine with native := state })
      | (.ok _, state) =>
        (.ok (), { engine with
          native := state
          candidateGroups := candidates.foldl Table.erase engine.candidateGroups })

end CompilerEngine

end GraphZero.Engine
