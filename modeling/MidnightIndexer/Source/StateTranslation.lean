import Mathlib.Algebra.BigOperators.Group.List.Basic

/-!
# Translation of a Merkle Patricia trie from ledger v8 to v9

indexer-common/src/domain/ledger/state_translation_v8_to_v9.rs:88-217. The trie is
that of the storage crate, with paths of nibbles. A node lists the objects it wants
translated, and is finished from a cache by their positions in that list. The
monoid operation is `append` of the annotations. `none` is an object that the
cache does not resolve.
-/

namespace MidnightIndexer.Source.StateTranslation

/-- `merkle_patricia_trie::Node`. -/
inductive Node (Value Ann : Type) where
  | empty
  | branch (ann : Ann) (children : Fin 16 → Node Value Ann)
  | extension (ann : Ann) (compressedPath : List (Fin 16)) (child : Node Value Ann)
  | leaf (ann : Ann) (value : Value)
  | midBranchLeaf (ann : Ann) (value : Value) (child : Node Value Ann)

def Node.ann {Value Ann : Type} [One Ann] : Node Value Ann → Ann
  | .empty => 1
  | .branch ann _ | .extension ann _ _ | .leaf ann _ | .midBranchLeaf ann _ _ => ann

/-- `entry_tl` and `self_tl`. -/
inductive TranslationId where
  | entry | self
  deriving DecidableEq, Repr

/-- A stored object: an entry or a node. -/
inductive Object (Value Ann : Type) where
  | value (value : Value)
  | node (node : Node Value Ann)

variable {A B AnnA AnnB : Type}

abbrev TranslationCache (A B AnnA AnnB : Type) :=
  TranslationId → Object A AnnA → Option (Object B AnnB)

def childTranslations : Node A AnnA → List (TranslationId × Object A AnnA)
  | .empty => []
  | .branch _ children => (List.ofFn children).map fun child => (.self, .node child)
  | .extension _ _ child => [(.self, .node child)]
  | .midBranchLeaf _ value child => [(.entry, .value value), (.self, .node child)]
  | .leaf _ value => [(.entry, .value value)]

/-- `cache.resolve` at the type of an entry. -/
def resolveValue (cache : TranslationCache A B AnnA AnnB) (tl : TranslationId × Object A AnnA) :
    Option B :=
  match cache tl.1 tl.2 with
  | some (.value value) => some value
  | _ => none

/-- `cache.resolve` at the type of a node. -/
def resolveNode (cache : TranslationCache A B AnnA AnnB) (tl : TranslationId × Object A AnnA) :
    Option (Node B AnnB) :=
  match cache tl.1 tl.2 with
  | some (.node node) => some node
  | _ => none

def finalizeNode [Monoid AnnB] (fromValue : B → AnnB) (cache : TranslationCache A B AnnA AnnB)
    (source : Node A AnnA) : Option (Node B AnnB) :=
  let tls := childTranslations source
  match source with
  | .empty => some .empty
  | .branch _ _ => do
    let resolved ← tls.mapM (resolveNode cache)
    let newChildren : Fin 16 → Node B AnnB := fun i => resolved.getD i .empty
    some (.branch ((List.ofFn newChildren).foldl (fun acc child => acc * child.ann) 1) newChildren)
  | .extension _ compressedPath _ => do
    let child ← tls[0]? >>= resolveNode cache
    some (.extension child.ann compressedPath child)
  | .leaf _ _ => do
    let value ← tls[0]? >>= resolveValue cache
    some (.leaf (fromValue value) value)
  | .midBranchLeaf _ _ _ => do
    let value ← tls[0]? >>= resolveValue cache
    let child ← tls[1]? >>= resolveNode cache
    some (.midBranchLeaf (fromValue value * child.ann) value child)

def finalizeTrie (cache : TranslationCache A B AnnA AnnB) (root : Node A AnnA) :
    Option (Node B AnnB) :=
  resolveNode cache (.self, .node root)

end MidnightIndexer.Source.StateTranslation
