import DeclChunk.Chunker

/-!
# Feeding a sink

The walk over an outline offers its chunks as soon as they exist.  This file says what that
comes to: the walk feeds the sink one fixed list of chunks, and the sink alone decides how far.

* `Sink.feed` — offer the chunks of a list one after another, up to the first refusal;
* `Extraction.typeChunks`, `Extraction.typesChunks` — the chunks of a type and of a list of
  types, as lists;
* `Emission.Feeds` — a computation does to the sink what feeding it a list does, from every
  state and with any log, and answers a fixed value once all chunks are taken;
* `emitTypes_feeds` — **the walk feeds `typesChunks`** and answers their number;
* `outcome_emitOutline` — so these are what it leaves in a collecting sink.

Nothing is said here about the records that a run reports.
-/

namespace DeclChunk

variable {σ α β : Type}

/-! ### Sinks fed with lists -/

namespace Sink

/-- Offer chunks one after another, up to the first that is refused. -/
def feed (sink : Sink σ) : List CodeChunk → σ → Except Fault Unit × σ
  | [], state => (.ok (), state)
  | chunk :: rest, state =>
    match sink.emit state chunk with
    | (.ok (), next) => feed sink rest next
    | (.error fault, next) => (.error fault, next)

/-- A list is fed by feeding its parts: the second is offered only if the first is taken. -/
theorem feed_append (sink : Sink σ) (first second : List CodeChunk) (state : σ) :
    sink.feed (first ++ second) state =
      match sink.feed first state with
      | (.ok (), next) => sink.feed second next
      | (.error fault, next) => (.error fault, next) := by
  induction first generalizing state with
  | nil => rfl
  | cons chunk rest ih =>
      simp only [List.cons_append, feed]
      cases h : sink.emit state chunk with
      | mk answer next =>
          cases answer with
          | error fault => rfl
          | ok _ => exact ih next

/-- The collecting sink takes every list whole. -/
theorem feed_collect (chunks taken : List CodeChunk) :
    Sink.collect.feed chunks taken = (.ok (), taken ++ chunks) := by
  induction chunks generalizing taken with
  | nil => simp [feed]
  | cons chunk rest ih =>
      have hrest := ih (taken ++ [chunk])
      rw [List.append_assoc, List.singleton_append] at hrest
      exact hrest

end Sink

/-! ### Computations that feed a list -/

namespace Emission

/-- What a computation answers from a state of the sink, and the state that it leaves. -/
def outcome (m : Emission σ α) (state : σ) : Except Fault α × σ :=
  ((m.runFrom state).1, (m.runFrom state).2.state)

/-- The computation feeds the sink a list of chunks, whatever was reported before, and answers
`value` if the sink takes them all. -/
def Feeds (sink : Sink σ) (m : Emission σ α) (chunks : List CodeChunk) (value : α) : Prop :=
  ∀ stream : Stream σ, ∃ logs : List LogRecord,
    m.run.run stream =
      match sink.feed chunks stream.state with
      | (.ok (), state) => (.ok value, ⟨state, logs⟩)
      | (.error fault, state) => (.error fault, ⟨state, logs⟩)

theorem feeds_pure (sink : Sink σ) (value : α) :
    Feeds sink (pure value) [] value := by
  intro stream
  exact ⟨stream.logs, rfl⟩

theorem feeds_report (sink : Sink σ) (records : List LogRecord) :
    Feeds sink (report records) [] () := by
  intro stream
  exact ⟨stream.logs ++ records, rfl⟩

theorem feeds_offer (sink : Sink σ) (chunk : CodeChunk) :
    Feeds sink (offer sink chunk) [chunk] () := by
  intro stream
  refine ⟨stream.logs, ?_⟩
  show ((sink.emit stream.state chunk).1, Stream.mk (sink.emit stream.state chunk).2 stream.logs)
    = _
  simp only [Sink.feed]
  cases h : sink.emit stream.state chunk with
  | mk answer next => cases answer <;> rfl

/-- A computation goes on where the one before it left the stream, unless that one failed. -/
theorem run_bind (m : Emission σ α) (k : α → Emission σ β) (stream : Stream σ) :
    (m >>= k).run.run stream =
      match m.run.run stream with
      | (.ok a, next) => (k a).run.run next
      | (.error fault, next) => (.error fault, next) := by
  show (ExceptT.bindCont k (m.run.run stream).1).run (m.run.run stream).2 = _
  cases m.run.run stream with
  | mk answer next => cases answer <;> rfl

/-- Computations in a row feed their lists in a row. -/
theorem Feeds.bind {sink : Sink σ} {m : Emission σ α} {k : α → Emission σ β}
    {first second : List CodeChunk} {a : α} {b : β}
    (hm : Feeds sink m first a) (hk : Feeds sink (k a) second b) :
    Feeds sink (m >>= k) (first ++ second) b := by
  intro stream
  obtain ⟨logs, hrun⟩ := hm stream
  rw [run_bind, hrun, Sink.feed_append]
  cases h : sink.feed first stream.state with
  | mk answer next =>
      cases answer with
      | error fault => exact ⟨logs, rfl⟩
      | ok _ => exact hk ⟨next, logs⟩

theorem Feeds.bind_pure {sink : Sink σ} {m : Emission σ α} {chunks : List CodeChunk} {a : α}
    (f : α → β) (hm : Feeds sink m chunks a) :
    Feeds sink (m >>= fun a => pure (f a)) chunks (f a) := by
  have h := hm.bind (k := fun a => pure (f a)) (feeds_pure sink (f a))
  rwa [List.append_nil] at h

/-- A computation that feeds a list does to the sink what the list does. -/
theorem Feeds.outcome_eq {sink : Sink σ} {m : Emission σ α} {chunks : List CodeChunk} {value : α}
    (hm : Feeds sink m chunks value) (state : σ) :
    m.outcome state =
      match sink.feed chunks state with
      | (.ok (), next) => (.ok value, next)
      | (.error fault, next) => (.error fault, next) := by
  obtain ⟨logs, hrun⟩ := hm ⟨state, []⟩
  have hout : m.runFrom state = m.run.run ⟨state, []⟩ := rfl
  rw [outcome, hout, hrun]
  cases sink.feed chunks state with
  | mk answer next => cases answer <;> rfl

/-- Into the collecting sink, a computation that feeds a list leaves that list. -/
theorem Feeds.outcome_collect {m : Emission (List CodeChunk) α} {chunks : List CodeChunk}
    {value : α} (hm : Feeds .collect m chunks value) (taken : List CodeChunk) :
    m.outcome taken = (.ok value, taken ++ chunks) := by
  rw [hm.outcome_eq, Sink.feed_collect]

end Emission

/-! ### The chunks of a walk -/

namespace Extraction

/-- The chunks of those members that are not synthetic. -/
def memberChunks (x : Extraction) (t : TypeDecl) (qualified : String) (members : List Member) :
    List CodeChunk :=
  (members.filter fun m => !m.synthetic).map fun m => x.memberChunk t m qualified

mutual

/-- The chunks of a type and of all types inside it. -/
def typeChunks (x : Extraction) (parent : Option String) : TypeDecl → List CodeChunk
  | .mk kind name depth span braceLine members nested =>
    let t : TypeDecl := .mk kind name depth span braceLine members nested
    let qualified := x.qualify parent name
    x.headerChunk t parent qualified
      :: (x.memberChunks t qualified (callables t) ++ x.typesChunks (some qualified) nested)

/-- The chunks of a list of types. -/
def typesChunks (x : Extraction) (parent : Option String) : List TypeDecl → List CodeChunk
  | [] => []
  | t :: rest => x.typeChunks parent t ++ x.typesChunks parent rest

end

open Emission in
theorem emitMembers_feeds (x : Extraction) (sink : Sink σ) (t : TypeDecl) (qualified : String)
    (members : List Member) :
    Feeds sink (x.emitMembers sink t qualified members) (x.memberChunks t qualified members)
      (x.memberChunks t qualified members).length := by
  induction members with
  | nil => exact feeds_pure sink 0
  | cons m rest ih =>
      unfold emitMembers
      by_cases hm : m.synthetic = true
      · have hskip : x.memberChunks t qualified (m :: rest) = x.memberChunks t qualified rest := by
          simp [memberChunks, hm]
        rw [if_pos hm, hskip]
        exact (feeds_report sink _).bind ih
      · have htake : x.memberChunks t qualified (m :: rest)
            = x.memberChunk t m qualified :: x.memberChunks t qualified rest := by
          simp [memberChunks, hm]
        rw [if_neg hm, htake, List.length_cons]
        exact (feeds_offer sink _).bind (ih.bind_pure (· + 1))

open Emission in
mutual

theorem emitType_feeds (x : Extraction) (sink : Sink σ) (parent : Option String) :
    (t : TypeDecl) →
      Feeds sink (x.emitType sink parent t) (x.typeChunks parent t) (x.typeChunks parent t).length
  | .mk kind name depth span braceLine members nested => by
      unfold emitType typeChunks
      let t : TypeDecl := .mk kind name depth span braceLine members nested
      let qualified := x.qualify parent name
      have hown := x.emitMembers_feeds sink t qualified (callables t)
      have hinner := emitTypes_feeds x sink (some qualified) nested
      have hrest := hown.bind (k := fun own => do
        let inner ← x.emitTypes sink (some qualified) nested
        pure (1 + own + inner)) (hinner.bind_pure _)
      have hchunks := (feeds_offer sink (x.headerChunk t parent qualified)).bind
        (k := fun _ => _) hrest
      have hall := (feeds_report sink (x.headerNotes t qualified)).bind (k := fun _ => _) hchunks
      simp only [List.nil_append, List.singleton_append] at hall
      have hcount : (x.headerChunk t parent qualified
          :: (x.memberChunks t qualified (callables t)
            ++ x.typesChunks (some qualified) nested)).length
          = 1 + (x.memberChunks t qualified (callables t)).length
            + (x.typesChunks (some qualified) nested).length := by
        simp only [List.length_cons, List.length_append]
        omega
      rw [hcount]
      exact hall

/-- **The walk feeds one list.**  What it offers, in which order, does not depend on the sink. -/
theorem emitTypes_feeds (x : Extraction) (sink : Sink σ) (parent : Option String) :
    (ts : List TypeDecl) →
      Feeds sink (x.emitTypes sink parent ts) (x.typesChunks parent ts)
        (x.typesChunks parent ts).length
  | [] => by
      unfold emitTypes typesChunks
      exact feeds_pure sink 0
  | t :: rest => by
      unfold emitTypes typesChunks
      have hfirst := emitType_feeds x sink parent t
      have hothers := emitTypes_feeds x sink parent rest
      rw [List.length_append]
      exact hfirst.bind (k := fun first => do
        let others ← x.emitTypes sink parent rest
        pure (first + others)) (hothers.bind_pure _)

end

/-- What a run leaves in a collecting sink, and its answer. -/
theorem outcome_emitOutline (x : Extraction) (o : Outline) :
    (x.emitOutline .collect o).outcome [] =
      (.ok (x.typesChunks none o.types).length, x.typesChunks none o.types) :=
  (x.emitTypes_feeds .collect none o.types).outcome_collect []

end Extraction

end DeclChunk
