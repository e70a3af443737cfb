import Mathlib.Data.List.FinRange
import MidnightIndexer.Source.StateTranslation

/-!
# What the translation of a trie keeps

A trie means the function from paths to values that `lookup` gives, and the list of its
values in key order. The induction is over the nodes: each kind requests its
children in the order in which it takes them from the cache.
-/

namespace MidnightIndexer.Guarantees.StateTranslation

open List Source.StateTranslation

variable {A B AnnA AnnB Value Ann : Type}

def lookup : Node Value Ann → List (Fin 16) → Option Value
  | .empty, _ => none
  | .branch _ _, [] => none
  | .branch _ children, nibble :: rest => lookup (children nibble) rest
  | .extension _ compressedPath child, path =>
    if compressedPath <+: path then lookup child (path.drop compressedPath.length) else none
  | .leaf _ value, path => if path = [] then some value else none
  | .midBranchLeaf _ value child, path => if path = [] then some value else lookup child path

def values : Node Value Ann → List Value
  | .empty => []
  | .branch _ children => (List.ofFn fun i => values (children i)).flatten
  | .extension _ _ child => values child
  | .leaf _ value => [value]
  | .midBranchLeaf _ value child => value :: values child

variable [Monoid Ann] [Monoid AnnB]

/-- The annotation of a node, recomputed from its values. -/
def recomputed (fromValue : Value → Ann) (node : Node Value Ann) : Ann :=
  ((values node).map fromValue).prod

def Annotated (fromValue : Value → Ann) : Node Value Ann → Prop
  | .empty => True
  | .branch ann children =>
    ann = recomputed fromValue (.branch ann children) ∧ ∀ i, Annotated fromValue (children i)
  | .extension ann path child =>
    ann = recomputed fromValue (.extension ann path child) ∧ Annotated fromValue child
  | .leaf ann value => ann = recomputed fromValue (.leaf ann value)
  | .midBranchLeaf ann value child =>
    ann = recomputed fromValue (.midBranchLeaf ann value child) ∧ Annotated fromValue child

theorem Annotated.ann_eq {fromValue : Value → Ann} {node : Node Value Ann}
    (annotated : Annotated fromValue node) : node.ann = recomputed fromValue node := by
  cases node with
  | empty => rfl
  | leaf ann value => exact annotated
  | branch | extension | midBranchLeaf => exact annotated.1

def ResolvesNode (fromValue : B → AnnB) (cache : TranslationCache A B AnnA AnnB)
    (node : Node A AnnA) : Prop :=
  cache .self (.node node) = (finalizeNode fromValue cache node).map .node

/-- The cache resolves every object below a node to its finished translation. -/
def Finished (fromValue : B → AnnB) (translate : A → B) (cache : TranslationCache A B AnnA AnnB) :
    Node A AnnA → Prop
  | .empty => True
  | .branch _ children => ∀ i, ResolvesNode fromValue cache (children i) ∧
      Finished fromValue translate cache (children i)
  | .extension _ _ child =>
    ResolvesNode fromValue cache child ∧ Finished fromValue translate cache child
  | .leaf _ value => cache .entry (.value value) = some (.value (translate value))
  | .midBranchLeaf _ value child =>
    cache .entry (.value value) = some (.value (translate value)) ∧
      ResolvesNode fromValue cache child ∧ Finished fromValue translate cache child

/-- Same paths, translated values, recomputed annotations. -/
def Translates (fromValue : B → AnnB) (translate : A → B) (source : Node A AnnA)
    (result : Node B AnnB) : Prop :=
  (∀ path, lookup result path = (lookup source path).map translate) ∧ Annotated fromValue result

section

variable {fromValue : B → AnnB} {translate : A → B} {cache : TranslationCache A B AnnA AnnB}

omit [Monoid AnnB] in
theorem resolveValue_eq {value : A}
    (resolves : cache .entry (.value value) = some (.value (translate value))) :
    resolveValue cache (.entry, .value value) = some (translate value) := by
  rw [resolveValue, resolves]

theorem resolveNode_eq {node : Node A AnnA} {result : Node B AnnB}
    (resolves : ResolvesNode fromValue cache node)
    (finished : finalizeNode fromValue cache node = some result) :
    resolveNode cache (.self, .node node) = some result := by
  rw [resolveNode, resolves, finished]
  rfl

theorem foldl_ann (children : List (Node B AnnB)) (ann : AnnB) :
    children.foldl (fun acc child => acc * child.ann) ann = ann * (children.map Node.ann).prod := by
  induction children generalizing ann with
  | nil => simp
  | cons child rest ih => rw [foldl_cons, ih, map_cons, prod_cons, mul_assoc]

theorem annotated_branch {children : Fin 16 → Node B AnnB}
    (each : ∀ i, Annotated fromValue (children i)) : Annotated fromValue (.branch
      ((ofFn children).foldl (fun acc child => acc * child.ann) 1) children) := by
  refine ⟨?_, each⟩
  rw [foldl_ann, one_mul, recomputed, values, map_flatten, prod_flatten, map_ofFn,
    map_ofFn, map_ofFn]
  exact congrArg (fun anns => (ofFn anns).prod) (funext fun i => (each i).ann_eq)

theorem finalizeNode_translates (source : Node A AnnA)
    (finished : Finished fromValue translate cache source) :
    ∃ result, finalizeNode fromValue cache source = some result ∧
      Translates fromValue translate source result := by
  induction source with
  | empty => exact ⟨.empty, rfl, fun _ => rfl, trivial⟩
  | branch ann children ih =>
    choose results done translates using fun i => ih i (finished i).2
    have resolved : (childTranslations (.branch ann children)).mapM (resolveNode cache) =
        some (ofFn results) := by
      have each : ∀ i, resolveNode cache (.self, .node (children i)) = some (results i) :=
        fun i => resolveNode_eq (finished i).1 (done i)
      rw [childTranslations, ofFn_eq_map, map_map, mapM_map]
      simp only [Function.comp_def, each, ofFn_eq_map]
      exact mapM_pure
    have placed : (fun i : Fin 16 => (ofFn results).getD i .empty) = results := by
      funext i
      rw [List.getD_eq_getElem?_getD, List.getElem?_ofFn, dif_pos i.isLt]
      rfl
    refine ⟨_, ?_, fun key => ?_, annotated_branch fun i => (translates i).2⟩
    · simp only [finalizeNode, resolved, Option.bind_eq_bind, Option.bind_some, placed]
    · cases key with
      | nil => rfl
      | cons nibble rest => exact (translates nibble).1 rest
  | extension ann path child ih =>
    obtain ⟨result, done, looked, annotated⟩ := ih finished.2
    refine ⟨.extension result.ann path result, ?_, fun key => ?_, annotated.ann_eq, annotated⟩
    · simp only [finalizeNode, childTranslations, getElem?_cons_zero, Option.bind_eq_bind,
        Option.bind_some, resolveNode_eq finished.1 done]
    · simp only [lookup, looked]
      split <;> rfl
  | leaf ann value =>
    refine ⟨.leaf (fromValue (translate value)) (translate value), ?_, fun key => ?_, ?_⟩
    · simp only [finalizeNode, childTranslations, getElem?_cons_zero, Option.bind_eq_bind,
        Option.bind_some, resolveValue_eq finished]
    · simp only [lookup]
      split <;> rfl
    · simp [Annotated, recomputed, values]
  | midBranchLeaf ann value child ih =>
    obtain ⟨entry, resolves, below⟩ := finished
    obtain ⟨result, done, looked, annotated⟩ := ih below
    refine ⟨.midBranchLeaf (fromValue (translate value) * result.ann) (translate value) result, ?_,
      fun key => ?_, ?_, annotated⟩
    · simp only [finalizeNode, childTranslations, getElem?_cons_zero, getElem?_cons_succ,
        Option.bind_eq_bind, Option.bind_some, resolveValue_eq entry, resolveNode_eq resolves done]
    · simp only [lookup, looked]
      split <;> rfl
    · rw [annotated.ann_eq, recomputed, recomputed, values, map_cons, prod_cons]

/-- The translated trie has the same paths, maps each to the translation of its value, and
carries at every node the annotation that its new values give. -/
theorem trie_translated {root : Node A AnnA} (resolves : ResolvesNode fromValue cache root)
    (finished : Finished fromValue translate cache root) :
    ∃ result, finalizeTrie cache root = some result ∧
      (∀ path, (lookup result path).isSome ↔ (lookup root path).isSome) ∧
      (∀ path, lookup result path = (lookup root path).map translate) ∧
      Annotated fromValue result := by
  obtain ⟨result, done, looked, annotated⟩ := finalizeNode_translates root finished
  refine ⟨result, resolveNode_eq resolves done, fun path => ?_, looked, annotated⟩
  rw [looked, Option.isSome_map]

end

/-- A cache for a leaf, and for a leaf in the middle of a branch above another. -/
def leafCache : TranslationCache Nat Nat Unit Nat
  | .entry, .value value => some (.value (value + 1))
  | .self, .node (.leaf _ value) => some (.node (.leaf (value + 1) (value + 1)))
  | .self, .node (.midBranchLeaf _ value (.leaf _ last)) =>
    some (.node (.midBranchLeaf ((value + 1) * (last + 1)) (value + 1)
      (.leaf (last + 1) (last + 1))))
  | _, _ => none

theorem trie_translated_leaves :
    let root : Node Nat Unit := .midBranchLeaf () 1 (.leaf () 2)
    ∃ result, finalizeTrie leafCache root = some result ∧
      (∀ path, (lookup result path).isSome ↔ (lookup root path).isSome) ∧
      (∀ path, lookup result path = (lookup root path).map (· + 1)) ∧ Annotated id result :=
  trie_translated rfl ⟨rfl, rfl, rfl⟩

end MidnightIndexer.Guarantees.StateTranslation
