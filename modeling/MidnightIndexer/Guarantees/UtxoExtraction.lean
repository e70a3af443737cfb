import MidnightIndexer.Source.UtxoExtraction

/-!
# What is extracted from a standard transaction

The loop over the segments collects, in some order, the guaranteed part of every
intent and the fallible part of the intents whose segment succeeded. All
guaranteed outputs are hashed with segment 0, so the keys of the created UTXOs
are distinct exactly if no intent with guaranteed outputs stands at two segments.
-/

namespace MidnightIndexer.Guarantees.UtxoExtraction

open Lib List Source.ChainIndexer
open Source (LedgerVersion)

variable {crate : UtxoCrate}

/-- Whether the fallible part of a segment took effect. -/
def segmentSucceeded : TransactionResult → Nat → Bool
  | .success, _ => true
  | .partialSuccess results, segment => results.contains (segment, true)
  | .failure, _ => false

/-- The parts of the intents that took effect. Segment 0 has no fallible part. -/
def effects (t : StandardTransaction crate) (result : TransactionResult)
    (part : Nat → crate.Intent → Bool → List LedgerUtxo) : List LedgerUtxo :=
  if result = .failure then []
  else
    (t.intents.flatMap fun intent => part 0 intent.2 true) ++
      (t.intents.filter fun intent => intent.1 ≠ 0 ∧ segmentSucceeded result intent.1).flatMap
        fun intent => part intent.1 intent.2 false

/-- No intent with guaranteed outputs stands at two segments. -/
def IntentsDistinct (t : StandardTransaction crate) : Prop :=
  t.intents.Pairwise fun a b => a.2 = b.2 → crate.guaranteedOutputs a.2 = []

/-- The hash of an intent in a segment, as the extraction computes it. -/
def hashOf (crate : UtxoCrate) (intent : crate.Intent) (segment : Nat) : ByteVec :=
  crate.intentHash (crate.erase intent) segment

/-- Every output of an intent has its own `u32` index. -/
def OutputsIndexed (t : StandardTransaction crate) : Prop :=
  ∀ intent ∈ t.intents, (crate.guaranteedOutputs intent.2).length ≤ 2 ^ 32 ∧
    (crate.fallibleOutputs intent.2).length ≤ 2 ^ 32

/-! ## The parts that took effect -/

variable {result : TransactionResult} {t : StandardTransaction crate}

theorem mem_successfulSegments {segments : List Nat} {segment : Nat} (member : segment ∈ segments) :
    segment ∈ successfulSegments segments result ↔ segmentSucceeded result segment := by
  cases result with
  | success => simpa [successfulSegments, segmentSucceeded] using member
  | partialSuccess | failure => simp [successfulSegments, segmentSucceeded]

/-- The sum over the segments is the sum over the intents. -/
theorem segmentParts_perm (covers : CoversIntents t) (applied : result ≠ .failure)
    (part : Nat → crate.Intent → Bool → List LedgerUtxo) :
    (t.segments.flatMap (segmentPart t (successfulSegments t.segments result) part)).Perm
      (effects t result part) := by
  let fallible := t.intents.filter fun intent => intent.1 ≠ 0
  let later : Nat × crate.Intent → List LedgerUtxo := fun intent =>
    if segmentSucceeded result intent.1 then part intent.1 intent.2 false else []
  have split := (perm_cons_erase covers.guaranteed).flatMap_right
    (segmentPart t (successfulSegments t.segments result) part)
  have each : ∀ segment ∈ t.segments.erase 0,
      segmentPart t (successfulSegments t.segments result) part segment =
        (Table.lookup Prod.fst segment fallible).elim [] later := by
    intro segment member
    obtain ⟨nonzero, inside⟩ := covers.distinct.mem_erase_iff.mp member
    have same : Table.lookup Prod.fst segment fallible =
        Table.lookup Prod.fst segment t.intents := by
      simp only [Table.lookup, fallible, find?_filter]
      congr 1
      funext intent
      by_cases hit : intent.1 = segment
      · simp [hit, nonzero]
      · simp [hit]
    rw [segmentPart, if_neg nonzero, same]
    cases found : Table.lookup Prod.fst segment t.intents with
    | none => rfl
    | some intent =>
      have key := (Table.lookup_some found).2
      simp [later, key, mem_successfulSegments inside]
  have unique : (fallible.map Prod.fst).Nodup := t.keys.sublist (filter_sublist.map _)
  have covered : ∀ intent ∈ fallible, intent.1 ∈ t.segments.erase 0 := by
    intro intent member
    obtain ⟨inside, nonzero⟩ := mem_filter.mp member
    exact covers.distinct.mem_erase_iff.mpr ⟨by simpa using nonzero, covers.intents intent inside⟩
  have visited := Table.flatMap_lookup_perm unique (covers.distinct.erase 0) covered later
  have selected : fallible.flatMap later =
      (t.intents.filter fun intent => intent.1 ≠ 0 ∧ segmentSucceeded result intent.1).flatMap
        fun intent => part intent.1 intent.2 false := by
    simp only [fallible]
    induction t.intents with
    | nil => rfl
    | cons intent rest ih =>
      by_cases success : segmentSucceeded result intent.1 <;>
        by_cases first : intent.1 = 0 <;> simp_all [later]
  rw [effects, if_neg applied, ← selected]
  refine split.trans ?_
  rw [flatMap_cons, flatMap_congr each]
  exact (visited.append_left _).trans (by simp [segmentPart])

theorem extracted_perm (covers : CoversIntents t) (result : TransactionResult)
    (state : crate.State) :
    (makeUnshieldedUtxosForRegularTransaction (.standard t) result state).1.Perm
        ((effects t result intentOutputs).map (makeUnshieldedUtxo state)) ∧
      (makeUnshieldedUtxosForRegularTransaction (.standard t) result state).2.Perm
        ((effects t result fun _ => intentInputs).map (makeUnshieldedUtxo state)) := by
  unfold makeUnshieldedUtxosForRegularTransaction
  split
  next failed => simp [effects, failed]
  next applied =>
    dsimp only
    rw [foldl_extendSegment]
    exact ⟨(segmentParts_perm covers applied _).map _, (segmentParts_perm covers applied _).map _⟩

/-! ## The keys of the created UTXOs -/

/-- Indexes below `2^32` are not cut off. -/
theorem outputUtxos_keys (state : crate.State) (hash : ByteVec) {outputs : List UtxoOutput}
    (indexed : outputs.length ≤ 2 ^ 32) :
    ((outputUtxos hash outputs).map (makeUnshieldedUtxo state)).map UnshieldedUtxo.key =
      (range outputs.length).map fun (index : Nat) => (hash, (index : Int)) := by
  apply ext_getElem
  · simp [outputUtxos]
  · intro index left right
    rw [length_map, length_range] at right
    have small : index % 4294967296 = index := Nat.mod_eq_of_lt (by omega)
    simp [outputUtxos, makeUnshieldedUtxo, UnshieldedUtxo.key, small]

def outputKeys (intent : crate.Intent) (segment : Nat) (outputs : List UtxoOutput) :
    List UtxoKey :=
  (List.range outputs.length).map fun (index : Nat) => (hashOf crate intent segment, (index : Int))

theorem outputKeys_nodup (intent : crate.Intent) (segment : Nat) (outputs : List UtxoOutput) :
    (outputKeys intent segment outputs).Nodup :=
  nodup_range.map fun _ _ same => Int.ofNat.inj (congrArg Prod.snd same)

theorem mem_outputKeys {intent : crate.Intent} {segment : Nat} {outputs : List UtxoOutput}
    {k : UtxoKey} (member : k ∈ outputKeys intent segment outputs) :
    k.1 = hashOf crate intent segment ∧ outputs ≠ [] := by
  obtain ⟨index, inside, rfl⟩ := mem_map.mp member
  refine ⟨rfl, fun empty => ?_⟩
  simp [empty] at inside

/-- Two intents' keys are apart unless they have the same hash and outputs. -/
theorem outputKeys_disjoint_iff {a b : crate.Intent} {s r : Nat} {outputs others : List UtxoOutput} :
    (outputKeys a s outputs).Disjoint (outputKeys b r others) ↔
      (hashOf crate a s = hashOf crate b r → outputs = [] ∨ others = []) := by
  constructor
  · intro apart same
    by_contra both
    rw [not_or, ← ne_eq, ← ne_eq, ← length_pos_iff, ← length_pos_iff] at both
    exact apart (mem_map.mpr ⟨0, mem_range.mpr both.1, rfl⟩)
      (mem_map.mpr ⟨0, mem_range.mpr both.2, by rw [same]⟩)
  · intro apart k left right
    obtain ⟨left_hash, left_some⟩ := mem_outputKeys left
    obtain ⟨right_hash, right_some⟩ := mem_outputKeys right
    rcases apart (left_hash.symm.trans right_hash) with none | none
    · exact left_some none
    · exact right_some none

/-- The keys of the guaranteed outputs, then those of the fallible outputs. -/
theorem effects_keys (indexed : OutputsIndexed t) (applied : result ≠ .failure)
    (state : crate.State) :
    ((effects t result intentOutputs).map (makeUnshieldedUtxo state)).map UnshieldedUtxo.key =
      (t.intents.flatMap fun intent =>
        outputKeys intent.2 0 (crate.guaranteedOutputs intent.2)) ++
      (t.intents.filter fun intent => intent.1 ≠ 0 ∧ segmentSucceeded result intent.1).flatMap
        fun intent => outputKeys intent.2 intent.1 (crate.fallibleOutputs intent.2) := by
  rw [effects, if_neg applied]
  simp only [map_append, map_flatMap]
  congr 1
  · apply flatMap_congr
    intro intent member
    exact outputUtxos_keys state _ (indexed intent member).1
  · apply flatMap_congr
    intro intent member
    exact outputUtxos_keys state _ (indexed intent (mem_of_mem_filter member)).2

theorem created_keys_nodup_iff (injective : Function.Injective2 (hashOf crate))
    (indexed : OutputsIndexed t) (applied : result ≠ .failure) (state : crate.State) :
    (((effects t result intentOutputs).map (makeUnshieldedUtxo state)).map
      UnshieldedUtxo.key).Nodup ↔ IntentsDistinct t := by
  rw [effects_keys indexed applied, nodup_append, nodup_flatMap, nodup_flatMap]
  have guaranteed : t.intents.Pairwise (Function.onFun Disjoint fun intent =>
      outputKeys intent.2 0 (crate.guaranteedOutputs intent.2)) ↔ IntentsDistinct t := by
    apply Pairwise.iff
    intro a b
    refine Iff.trans outputKeys_disjoint_iff ?_
    constructor
    · intro apart same
      rcases apart (by rw [same]) with none | none
      · exact none
      · rwa [same]
    · intro distinct same
      exact .inl (distinct (injective same).1)
  have fallible : (t.intents.filter fun intent =>
      intent.1 ≠ 0 ∧ segmentSucceeded result intent.1).Pairwise (Function.onFun Disjoint
        fun intent => outputKeys intent.2 intent.1 (crate.fallibleOutputs intent.2)) := by
    have distinct := t.keys
    rw [Nodup, pairwise_map] at distinct
    refine (distinct.sublist filter_sublist).imp ?_
    intro a b different
    exact outputKeys_disjoint_iff.mpr fun same => absurd (injective same).2 different
  constructor
  · intro all
    exact guaranteed.mp all.1.2
  · intro distinct
    refine ⟨⟨fun _ _ => outputKeys_nodup _ _ _, guaranteed.mpr distinct⟩,
      ⟨fun _ _ => outputKeys_nodup _ _ _, fallible⟩, ?_⟩
    intro k left other right same
    obtain ⟨a, _, left⟩ := mem_flatMap.mp left
    obtain ⟨b, member, right⟩ := mem_flatMap.mp right
    have nonzero : b.1 ≠ 0 := (of_decide_eq_true (mem_filter.mp member).2).1
    have hashes := (mem_outputKeys left).1.symm.trans (same ▸ (mem_outputKeys right).1)
    exact nonzero (injective hashes).2.symm

/-! ## Two ledger versions -/

section

variable {a b : UtxoCrate}

/-- The intents have the same hashes, outputs and inputs. -/
structure SameIntent (i : a.Intent) (j : b.Intent) : Prop where
  hash : ∀ segment, hashOf a i segment = hashOf b j segment
  guaranteedOutputs : a.guaranteedOutputs i = b.guaranteedOutputs j
  fallibleOutputs : a.fallibleOutputs i = b.fallibleOutputs j
  guaranteedInputs : (a.guaranteedInputs i).map (inputUtxo a) =
    (b.guaranteedInputs j).map (inputUtxo b)
  fallibleInputs : (a.fallibleInputs i).map (inputUtxo a) =
    (b.fallibleInputs j).map (inputUtxo b)

/-- The ledger states answer the extraction's questions alike. -/
structure SameLedger (s : a.State) (r : b.State) : Prop where
  commit : ∀ index hash, a.persistentCommit index hash = b.persistentCommit index hash
  nightIndices : ∀ nonce, a.nightIndices s nonce = b.nightIndices r nonce
  ctime : ∀ utxo, a.ctime s utxo = b.ctime r utxo

inductive SameTransaction : LedgerTransaction a → LedgerTransaction b → Prop
  | standard {t : StandardTransaction a} {u : StandardTransaction b}
      (segments : t.segments = u.segments)
      (intents : List.Forall₂ (fun i j => i.1 = j.1 ∧ SameIntent i.2 j.2) t.intents u.intents) :
      SameTransaction (.standard t) (.standard u)
  | claimRewards {c : ClaimRewards a} {d : ClaimRewards b}
      (owner : a.userAddress c.owner = b.userAddress d.owner) (value : c.value = d.value)
      (nonce : c.nonce = d.nonce) (night : a.night = b.night)
      (hash : ∀ output tokenType, a.mkIntentHash output tokenType = b.mkIntentHash output tokenType) :
      SameTransaction (.claimRewards c) (.claimRewards d)

theorem SameLedger.makeUnshieldedUtxo_eq {s : a.State} {r : b.State} (same : SameLedger s r) :
    makeUnshieldedUtxo s = makeUnshieldedUtxo r := by
  funext utxo
  simp only [makeUnshieldedUtxo, makeInitialNonce, registeredForDustGeneration, same.commit,
    same.nightIndices, same.ctime]

theorem SameIntent.outputs {i : a.Intent} {j : b.Intent} (same : SameIntent i j) (segment : Nat)
    (guaranteed : Bool) : intentOutputs segment i guaranteed = intentOutputs segment j guaranteed := by
  have hash : a.intentHash (a.erase i) segment = b.intentHash (b.erase j) segment :=
    same.hash segment
  cases guaranteed with
  | true => simp [intentOutputs, hash, same.guaranteedOutputs]
  | false => simp [intentOutputs, hash, same.fallibleOutputs]

theorem SameIntent.inputs {i : a.Intent} {j : b.Intent} (same : SameIntent i j)
    (guaranteed : Bool) : intentInputs i guaranteed = intentInputs j guaranteed := by
  cases guaranteed with
  | true => exact same.guaranteedInputs
  | false => exact same.fallibleInputs

theorem segmentPart_eq {t : StandardTransaction a} {u : StandardTransaction b}
    (intents : Forall₂ (fun i j => i.1 = j.1 ∧ SameIntent i.2 j.2) t.intents u.intents)
    {part : Nat → a.Intent → Bool → List LedgerUtxo} {other : Nat → b.Intent → Bool → List LedgerUtxo}
    (same : ∀ {i : a.Intent} {j : b.Intent}, SameIntent i j → ∀ segment guaranteed,
      part segment i guaranteed = other segment j guaranteed)
    (successful : List Nat) : segmentPart t successful part = segmentPart u successful other := by
  funext segment
  unfold segmentPart
  generalize t.intents = left at intents
  generalize u.intents = right at intents
  split
  next =>
    induction intents with
    | nil => rfl
    | cons first _ ih => rw [flatMap_cons, flatMap_cons, ih, same first.2]
  next =>
    induction intents with
    | nil => rfl
    | @cons i j _ _ first _ ih =>
      by_cases hit : i.1 = segment
      · have other_hit : j.1 = segment := first.1 ▸ hit
        simp only [Table.lookup, find?_cons, hit, other_hit, decide_true, Option.elim_some,
          same first.2]
      · have other_miss : j.1 ≠ segment := first.1 ▸ hit
        simpa only [Table.lookup, find?_cons, hit, other_miss, decide_false] using ih

theorem extraction_agrees {t : LedgerTransaction a} {u : LedgerTransaction b}
    (transaction : SameTransaction t u) {s : a.State} {r : b.State} (ledger : SameLedger s r)
    (result : TransactionResult) : makeUnshieldedUtxosForRegularTransaction t result s =
      makeUnshieldedUtxosForRegularTransaction u result r := by
  unfold makeUnshieldedUtxosForRegularTransaction
  cases transaction with
  | standard segments intents =>
    dsimp only
    rw [foldl_extendSegment, foldl_extendSegment, segments, ledger.makeUnshieldedUtxo_eq,
      segmentPart_eq intents fun same => same.outputs,
      segmentPart_eq intents fun same _ => same.inputs]
  | @claimRewards c d owner value nonce night hash =>
    have utxo : claimUtxo c = claimUtxo d := by
      simp only [claimUtxo, owner, value, nonce, night, hash]
    dsimp only
    rw [utxo, ledger.makeUnshieldedUtxo_eq]

end

/-- Every intent creates one output and spends one UTXO in each phase. -/
def sampleCrate : UtxoCrate where
  VerifyingKey := UInt8
  Intent := UInt8
  ErasedIntent := UInt8
  State := Unit
  userAddress key := [key]
  erase intent := intent
  intentHash intent segment := intent :: List.replicate segment 0
  guaranteedOutputs intent := [⟨1, [intent], []⟩]
  fallibleOutputs intent := [⟨2, [intent], []⟩]
  guaranteedInputs intent := [⟨1, intent, [], [1], 0⟩]
  fallibleInputs intent := [⟨2, intent, [], [2], 1⟩]
  night := []
  mkIntentHash output _ := output.nonce
  persistentCommit index hash := index.toUInt8 :: hash
  nightIndices _ nonce := nonce.length = 2
  ctime _ utxo := some (UInt64.ofNat utxo.value)

theorem sampleCrate_injective : Function.Injective2 (hashOf sampleCrate) := by
  intro i j s r same
  obtain ⟨intent, zeros⟩ := cons.inj same
  refine ⟨intent, ?_⟩
  simpa using congrArg length zeros

theorem sampleSegments_nodup (first second : UInt8) :
    ([(1, first), (2, second)].map Prod.fst).Nodup := by
  simp

def sampleTransaction (first second : UInt8) : StandardTransaction sampleCrate where
  intents := [(1, first), (2, second)]
  keys := sampleSegments_nodup first second
  segments := [0, 1, 2]

theorem sampleTransaction_covers (first second : UInt8) :
    CoversIntents (sampleTransaction first second) :=
  ⟨by simp [sampleTransaction], by simp [sampleTransaction], by simp [sampleTransaction]⟩

end MidnightIndexer.Guarantees.UtxoExtraction
