import MidnightIndexer.Source.StreamCalls

/-!
# Block authors and restarted streams

The author of a block is derived from the cached authority set. Within a stream
the cache holds the set of the block below, unless that block started a session;
a new stream has no cache and reads the block's own set. The two differ exactly
where a restarted stream begins with a block that itself starts a session, since
such a block already holds the next session's set: its author is then derived
from a set it was not chosen from.
-/

namespace MidnightIndexer.Guarantees.Authors

open Lib List Source

variable {Hash Author Details : Type}

section

variable (block : SubxtBlock Hash Author Details)

/-- The authority set in the block's state. -/
def setOf : List Author :=
  match block.authorities with
  | .ok authorities => authorities
  | .error _ => []

def authorOf (authorities : List Author) : Option Author :=
  match extractBlockAuthor block authorities with
  | .ok author => author
  | .error _ => none

/-- The set the author is derived from, given the block made before it. -/
def sessionSet (below : Option (SubxtBlock Hash Author Details)) : List Author :=
  match below with
  | some below => if below.newSession then setOf block else setOf below
  | none => setOf block

end

def authorsFrom : Option (SubxtBlock Hash Author Details) →
    List (SubxtBlock Hash Author Details) → List (Option Author)
  | _, [] => []
  | below, block :: rest =>
    authorOf block (sessionSet block below) :: authorsFrom (some block) rest

/-- The authority set changes only in a block that starts a session. -/
def SessionSets : Option (SubxtBlock Hash Author Details) →
    List (SubxtBlock Hash Author Details) → Prop
  | _, [] => True
  | below, block :: rest =>
    (∀ lower ∈ below, block.newSession = false → setOf block = setOf lower) ∧
      SessionSets (some block) rest

def cacheAfter : Option (SubxtBlock Hash Author Details) → Option (List Author)
  | none => none
  | some block => if block.newSession then none else some (setOf block)

variable {block : SubxtBlock Hash Author Details}

section

variable {below : Option (SubxtBlock Hash Author Details)}
  {blocks : List (SubxtBlock Hash Author Details)}

theorem getLast?_cons_or (block : SubxtBlock Hash Author Details) :
    (block :: blocks).getLast?.or below = blocks.getLast?.or (some block) := by
  simpa using Chain.last_or_cons id block below

theorem authorsFrom_append (xs ys : List (SubxtBlock Hash Author Details)) :
    authorsFrom below (xs ++ ys) =
      authorsFrom below xs ++ authorsFrom (xs.getLast?.or below) ys := by
  induction xs generalizing below with
  | nil => rfl
  | cons block rest ih =>
    rw [cons_append, authorsFrom, authorsFrom, ih, cons_append, getLast?_cons_or]

theorem authorsFrom_take (n : Nat) :
    authorsFrom below (blocks.take n) = (authorsFrom below blocks).take n := by
  induction n generalizing below blocks with
  | zero => rfl
  | succ n ih =>
    cases blocks with
    | nil => rfl
    | cons block rest =>
      rw [take_succ_cons, authorsFrom, authorsFrom, take_succ_cons, ih]

theorem sessionSets_append {xs ys : List (SubxtBlock Hash Author Details)} :
    SessionSets below (xs ++ ys) ↔ SessionSets below xs ∧ SessionSets (xs.getLast?.or below) ys := by
  induction xs generalizing below with
  | nil => simp [SessionSets]
  | cons block rest ih =>
    rw [cons_append, SessionSets, SessionSets, ih, getLast?_cons_or, and_assoc]

theorem SessionSets.take (sets : SessionSets below blocks) (n : Nat) :
    SessionSets below (blocks.take n) := by
  rw [← take_append_drop n blocks, sessionSets_append] at sets
  exact sets.1

theorem SessionSets.restart (sets : SessionSets below blocks) : SessionSets none blocks := by
  cases blocks with
  | nil => trivial
  | cons block rest => exact ⟨by simp, sets.2⟩

theorem fetchIfNone_cacheAfter (makeable : block.Makeable) :
    fetchIfNone (cacheAfter below) block = .ok (sessionSet block below) := by
  obtain ⟨authorities, read⟩ := makeable.authorities
  have own : block.authorities = .ok (setOf block) := by
    rw [setOf, read]
  unfold cacheAfter sessionSet
  cases below with
  | none => exact own
  | some lower =>
    dsimp only
    split
    · exact own
    · rfl

variable (same : ∀ lower ∈ below, block.newSession = false → setOf block = setOf lower)

include same in
theorem sessionSet_eq_setOf (session : block.newSession = false) :
    sessionSet block below = setOf block := by
  unfold sessionSet
  split
  next lower =>
    split
    · rfl
    · exact (same lower rfl session).symm
  next => rfl

include same in
theorem cacheAfter_some : (if block.newSession then none else some (sessionSet block below)) =
      cacheAfter (some block) := by
  rw [cacheAfter]
  split
  next => rfl
  next session => rw [sessionSet_eq_setOf same (by simpa using session)]

theorem makeBlock_author (makeable : block.Makeable)
    (same : ∀ lower ∈ below, block.newSession = false → setOf block = setOf lower) :
    ∃ made, makeBlock (cacheAfter below) block = .ok (made, cacheAfter (some block)) ∧
      made.content.author = authorOf block (sessionSet block below) := by
  obtain ⟨details, read⟩ := makeable.details
  obtain ⟨author, derived⟩ : ∃ author, extractBlockAuthor block (sessionSet block below) =
      .ok author := authorFromDigestLogs_total makeable.digests _
  refine ⟨⟨block.hash, block.number, block.parentHash, ⟨author, details⟩⟩, ?_, ?_⟩
  · rw [← cacheAfter_some same]
    simp only [makeBlock, fetchIfNone_cacheAfter makeable, bind, Except.bind, derived, read]
    rfl
  · simp only [authorOf, derived]

theorem makeAll_authors (makeable : ∀ block ∈ blocks, block.Makeable)
    (sets : SessionSets below blocks) :
    ∃ made next, makeAll blocks (cacheAfter below) = ⟨made, .ok next⟩ ∧
      made.map (fun block => block.content.author) = authorsFrom below blocks := by
  induction blocks generalizing below with
  | nil => exact ⟨[], cacheAfter below, rfl, rfl⟩
  | cons block rest ih =>
    obtain ⟨made, success, author⟩ := makeBlock_author (makeable block mem_cons_self) sets.1
    obtain ⟨later, next, all, authors⟩ :=
      ih (fun other member => makeable other (mem_cons_of_mem block member)) sets.2
    refine ⟨made :: later, next, ?_, ?_⟩
    · rw [makeAll, makeAndYield_of_ok success]
      change (⟨[made] ++ (makeAll rest (cacheAfter (some block))).items,
        (makeAll rest (cacheAfter (some block))).outcome⟩ :
          BlockStream Hash Author Details (Option (List Author))) = _
      rw [all]
      rfl
    · rw [map_cons, authors, author, authorsFrom]

end

/-- Where a stream begins above an earlier one, with the block below. -/
def restartPoints : Option (SubxtBlock Hash Author Details) →
    List (List (SubxtBlock Hash Author Details)) →
      List (SubxtBlock Hash Author Details × SubxtBlock Hash Author Details)
  | _, [] => []
  | below, [] :: streams => restartPoints below streams
  | below, (block :: rest) :: streams =>
    (below.map fun lower => (lower, block)).toList ++
      restartPoints (rest.getLast?.or (some block)) streams

/-- A restart does not change the author: the block does not start a session, or
the one below it does, or both sets yield the same author. -/
def RestartSafe (below block : SubxtBlock Hash Author Details) : Prop :=
  block.newSession = true → below.newSession = false →
    authorOf block (setOf block) = authorOf block (setOf below)

section

variable {below : Option (SubxtBlock Hash Author Details)}
  {streams : List (List (SubxtBlock Hash Author Details))}

/-- The authors of the streams are those of one stream if every restart derives
its first author from an equivalent set. -/
theorem authors_streams_iff :
    streams.flatMap (authorsFrom none) = authorsFrom below streams.flatten ↔
      ∀ point ∈ restartPoints below streams, authorOf point.2 (setOf point.2) =
        authorOf point.2 (sessionSet point.2 (some point.1)) := by
  induction streams generalizing below with
  | nil => simp [authorsFrom, restartPoints]
  | cons stream streams ih =>
    cases stream with
    | nil => simpa [authorsFrom, restartPoints] using ih
    | cons block rest =>
      rw [flatMap_cons, flatten_cons, authorsFrom_append, getLast?_cons_or, authorsFrom,
        authorsFrom, cons_append, cons_append, cons.injEq,
        append_cancel_left_eq, ih, restartPoints]
      cases below with
      | none => simp [sessionSet]
      | some lower =>
        simp only [Option.map_some, Option.toList_some, singleton_append, forall_mem_cons]
        rfl

/-- The set changes only with a session, so the sets agree exactly at safe
restarts. -/
theorem restartSafe_iff {lower : SubxtBlock Hash Author Details}
    (same : block.newSession = false → setOf block = setOf lower) :
    authorOf block (setOf block) = authorOf block (sessionSet block (some lower)) ↔
      RestartSafe lower block := by
  unfold RestartSafe sessionSet
  cases session : block.newSession with
  | false => simp [same session]
  | true => cases below_session : lower.newSession <;> simp [below_session]

/-- Restart points are neighbours of the chain. -/
theorem sets_of_restartPoint (sets : SessionSets below streams.flatten)
    {point : SubxtBlock Hash Author Details × SubxtBlock Hash Author Details}
    (member : point ∈ restartPoints below streams) :
    point.2.newSession = false → setOf point.2 = setOf point.1 := by
  induction streams generalizing below with
  | nil => cases member
  | cons stream streams ih =>
    cases stream with
    | nil => exact ih sets member
    | cons block rest =>
      rw [flatten_cons, sessionSets_append, getLast?_cons_or] at sets
      rw [restartPoints, mem_append] at member
      rcases member with here | later
      · cases below with
        | none => cases here
        | some lower =>
          rw [Option.map_some, Option.toList_some, mem_singleton] at here
          rw [here]
          exact sets.1.1 lower rfl
      · exact ih sets.2 later

end

/-- Streams called one after the other, each after the block recorded last. -/
inductive Streams [Inhabited Hash] (chain : CanonicalChain Hash Author Details) :
    List (SubxtBlock Hash Author Details) → List (StreamCall Hash Author Details) →
      List (List (SubxtBlock Hash Author Details)) → Prop where
  | done (before) : Streams chain before [] []
  | call {before blocks call calls streams} (stream : StreamOf chain before call blocks)
      (rest : Streams chain (before ++ blocks.take call.taken) calls streams) :
      Streams chain before (call :: calls) (blocks.take call.taken :: streams)

def recordedAuthors [DecidableEq Hash] [Inhabited Hash] (fuel : Nat)
    (node : SubxtNode Hash Author Details) (calls : List (StreamCall Hash Author Details)) :
    List (Option Author) :=
  calls.flatMap fun call =>
    ((finalizedBlocks fuel node call.after call.deliveries call.later).items.take call.taken).map
      fun block => block.content.author

section

variable [Inhabited Hash] {chain : CanonicalChain Hash Author Details}
  {before : List (SubxtBlock Hash Author Details)}

theorem sessionSets_of_stream {blocks : List (SubxtBlock Hash Author Details)}
    {call : StreamCall Hash Author Details} (stream : StreamOf chain before call blocks)
    (sets : SessionSets none chain.blocks) : SessionSets none blocks := by
  obtain ⟨rest, inside⟩ := stream.inside
  rw [inside, sessionSets_append, sessionSets_append] at sets
  exact sets.2.1.restart

theorem recordedAuthors_eq [DecidableEq Hash] {node : SubxtNode Hash Author Details} {fuel : Nat}
    (makeable : ∀ block ∈ chain.blocks, block.Makeable) (sets : SessionSets none chain.blocks)
    (serves : Serves node chain chain.blocks.length) (enough : finalizationSafetyMargin < fuel)
    {calls : List (StreamCall Hash Author Details)}
    {streams : List (List (SubxtBlock Hash Author Details))}
    (called : Streams chain before calls streams) :
    recordedAuthors fuel node calls = streams.flatMap (authorsFrom none) := by
  induction called with
  | done => rfl
  | @call before blocks call calls streams stream _ ih =>
    obtain ⟨rest, inside⟩ := stream.inside
    have makes : ∀ block ∈ blocks, block.Makeable :=
      fun block member => makeable block (by simp [inside, member])
    obtain ⟨made, next, all, authors⟩ := makeAll_authors makes (sessionSets_of_stream stream sets)
    have yielded : (finalizedBlocks fuel node call.after call.deliveries call.later).items =
        made := by
      change makeAll blocks none = _ at all
      rw [stream.finalizedBlocks_eq serves fuel enough, all]
      exact append_nil made
    rw [recordedAuthors, flatMap_cons, flatMap_cons, yielded, map_take, authors,
      authorsFrom_take, ← ih]
    rfl

end

/-- For every chain and every streams over it, the recorded authors are those of
one stream from genesis if and only if every restart is safe. -/
theorem restarted_authors_iff [DecidableEq Hash] [Inhabited Hash]
    (chain : CanonicalChain Hash Author Details)
    (makeable : ∀ block ∈ chain.blocks, block.Makeable) (sets : SessionSets none chain.blocks)
    (node : SubxtNode Hash Author Details) (serves : Serves node chain chain.blocks.length)
    (fuel : Nat) (enough : finalizationSafetyMargin < fuel)
    (calls : List (StreamCall Hash Author Details))
    (streams : List (List (SubxtBlock Hash Author Details)))
    (called : Streams chain [] calls streams) (whole : StreamCall Hash Author Details)
    (uninterrupted : Streams chain [] [whole] [streams.flatten]) :
    recordedAuthors fuel node calls = recordedAuthors fuel node [whole] ↔
      ∀ point ∈ restartPoints none streams, RestartSafe point.1 point.2 := by
  rw [recordedAuthors_eq makeable sets serves enough called,
    recordedAuthors_eq makeable sets serves enough uninterrupted, List.flatMap_singleton,
    authors_streams_iff]
  have recorded : SessionSets none streams.flatten := by
    generalize same : streams.flatten = flat at uninterrupted
    cases uninterrupted with
    | call stream _ => exact (sessionSets_of_stream stream sets).take whole.taken
  constructor
  · intro equal point member
    exact (restartSafe_iff (sets_of_restartPoint recorded member)).mp (equal point member)
  · intro safe point member
    exact (restartSafe_iff (sets_of_restartPoint recorded member)).mpr (safe point member)

/-- Two streams around the session change, restarted after it. -/
def restartAfterSession : List (StreamCall Nat Nat Unit) :=
  [⟨none, [.block (sampleBlock 0 [5, 6] false), .block (sampleBlock 1 [6, 5] true)], [], 2⟩,
    ⟨some ⟨2, 1⟩, [.block (sampleBlock 2 [6, 5] false)], [], 1⟩]

/-- Two streams, the second one restarted at the block of the session change. -/
def restartAtSession : List (StreamCall Nat Nat Unit) :=
  [⟨none, [.block (sampleBlock 0 [5, 6] false)], [], 1⟩,
    ⟨some ⟨1, 0⟩, [.block (sampleBlock 2 [6, 5] false)], [], 2⟩]

def wholeStream : StreamCall Nat Nat Unit :=
  ⟨none, [.block (sampleBlock 2 [6, 5] false)], [], 3⟩

theorem wholeStream_stream : StreamOf sampleChain [] wholeStream sampleChain.blocks where
  after := rfl
  inside := ⟨[], rfl⟩
  delivered := ⟨[sampleBlock 0 [5, 6] false, sampleBlock 1 [6, 5] true],
    sampleBlock 2 [6, 5] false, [], [], rfl, rfl, .done _⟩

theorem restarted_authors_iff_sample :
    recordedAuthors 401 sampleNode restartAfterSession =
      recordedAuthors 401 sampleNode [wholeStream] := by
  have first : StreamOf sampleChain []
      ⟨none, [.block (sampleBlock 0 [5, 6] false), .block (sampleBlock 1 [6, 5] true)], [], 2⟩
      [sampleBlock 0 [5, 6] false, sampleBlock 1 [6, 5] true] :=
    ⟨rfl, ⟨[sampleBlock 2 [6, 5] false], rfl⟩,
      ⟨[], _, [sampleBlock 1 [6, 5] true], [], rfl, rfl, .done _⟩⟩
  have second : StreamOf sampleChain [sampleBlock 0 [5, 6] false, sampleBlock 1 [6, 5] true]
      ⟨some ⟨2, 1⟩, [.block (sampleBlock 2 [6, 5] false)], [], 1⟩ [sampleBlock 2 [6, 5] false] :=
    ⟨rfl, ⟨[], rfl⟩, ⟨[], _, [], [], rfl, rfl, .done _⟩⟩
  exact (restarted_authors_iff sampleChain sampleChain_makeable
    ⟨by simp, by simp [sampleBlock], by simp [sampleBlock, setOf], trivial⟩ sampleNode
    (sampleNode_serves _) 401 (by decide) restartAfterSession
    [[sampleBlock 0 [5, 6] false, sampleBlock 1 [6, 5] true], [sampleBlock 2 [6, 5] false]]
    (.call first (.call second (.done _))) wholeStream (.call wholeStream_stream (.done _))).mpr
    (by simp [restartPoints, RestartSafe, sampleBlock])

/-- The second block's author was chosen from the first session's set, but the
restarted stream derives it from the second session's. -/
theorem session_block_author_changed :
    let streams := [[sampleBlock 0 [5, 6] false],
      [sampleBlock 1 [6, 5] true, sampleBlock 2 [6, 5] false]]
    Streams sampleChain [] restartAtSession streams ∧
      Streams sampleChain [] [wholeStream] [streams.flatten] ∧
      SessionSets none sampleChain.blocks ∧
      recordedAuthors 401 sampleNode restartAtSession = [some 5, some 6, some 6] ∧
      recordedAuthors 401 sampleNode [wholeStream] = [some 5, some 5, some 6] := by
  have first : StreamOf sampleChain [] ⟨none, [.block (sampleBlock 0 [5, 6] false)], [], 1⟩
      [sampleBlock 0 [5, 6] false] :=
    ⟨rfl, ⟨[sampleBlock 1 [6, 5] true, sampleBlock 2 [6, 5] false], rfl⟩,
      ⟨[], _, [], [], rfl, rfl, .done _⟩⟩
  have second : StreamOf sampleChain [sampleBlock 0 [5, 6] false]
      ⟨some ⟨1, 0⟩, [.block (sampleBlock 2 [6, 5] false)], [], 2⟩
      [sampleBlock 1 [6, 5] true, sampleBlock 2 [6, 5] false] :=
    ⟨rfl, ⟨[], rfl⟩, ⟨[sampleBlock 1 [6, 5] true], _, [], [], rfl, rfl, .done _⟩⟩
  exact ⟨.call first (.call second (.done _)), .call wholeStream_stream (.done _),
    ⟨by simp, by simp [sampleBlock], by simp [sampleBlock, setOf], trivial⟩, by decide +kernel,
    by decide +kernel⟩

end MidnightIndexer.Guarantees.Authors
