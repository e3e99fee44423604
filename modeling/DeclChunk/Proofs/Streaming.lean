import DeclChunk.Proofs.Feeding
import DeclChunk.SourceFile

/-!
# Streaming equals collecting

A run into any sink is compared with the list that the same run leaves in a collecting sink.

* `Sink.after` — the state of a sink that was offered some chunks, whatever it said to them;
* `Sink.Takes` — a sink that takes every one of some chunks;
* `Sink.watched` — the same sink with a record of the chunks that it is offered;
* `observe` — what a run into a sink comes to: its answer, the state it leaves, and all chunks
  that were offered on the way;
* `chunkWith_streams_collected` — **streaming is collecting cut at the first refusal**: a sink
  that takes all collected chunks is offered exactly these; one that refuses the chunk with
  number `k` is offered the first `k + 1`, and its fault is the answer.  Without an outline, or
  a reader for the language, nothing is offered.

The sink is arbitrary: its states may be of any type, and what it says to a chunk may depend on
all that it was offered before.
-/

namespace DeclChunk

variable {σ : Type}

/-! ### What a sink does with a list of chunks -/

namespace Sink

/-- The state of a sink that was offered some chunks one after another. -/
def after (sink : Sink σ) (state : σ) (chunks : List CodeChunk) : σ :=
  chunks.foldl (fun s chunk => (sink.emit s chunk).2) state

/-- The sink takes every one of the chunks when they are offered one after another. -/
def Takes (sink : Sink σ) (state : σ) (chunks : List CodeChunk) : Prop :=
  ∀ (k : Nat) (h : k < chunks.length),
    (sink.emit (sink.after state (chunks.take k)) chunks[k]).1 = .ok ()

/-- The same sink; beside its state it keeps the chunks that it was offered, newest last. -/
def watched (sink : Sink σ) : Sink (σ × List CodeChunk) where
  emit s chunk := ((sink.emit s.1 chunk).1, (sink.emit s.1 chunk).2, s.2 ++ [chunk])

theorem after_append (sink : Sink σ) (state : σ) (first second : List CodeChunk) :
    sink.after state (first ++ second) = sink.after (sink.after state first) second := by
  simp only [after, List.foldl_append]

theorem after_watched (sink : Sink σ) (s : σ × List CodeChunk) (chunks : List CodeChunk) :
    sink.watched.after s chunks = (sink.after s.1 chunks, s.2 ++ chunks) := by
  induction chunks generalizing s with
  | nil => simp [after]
  | cons chunk rest ih =>
      have hrest := ih ((sink.watched.emit s chunk).2)
      simp only [after, List.foldl_cons, watched] at hrest ⊢
      rw [hrest, List.append_assoc, List.singleton_append]

/-- Being watched does not change what a sink takes. -/
theorem takes_watched (sink : Sink σ) (s : σ × List CodeChunk) (chunks : List CodeChunk) :
    sink.watched.Takes s chunks ↔ sink.Takes s.1 chunks := by
  simp only [Takes, after_watched]
  rfl

theorem takes_cons (sink : Sink σ) (state : σ) (chunk : CodeChunk) (rest : List CodeChunk) :
    sink.Takes state (chunk :: rest) ↔
      (sink.emit state chunk).1 = .ok () ∧ sink.Takes (sink.emit state chunk).2 rest := by
  constructor
  · intro h
    refine ⟨h 0 (by simp), ?_⟩
    intro k hk
    exact h (k + 1) (by simpa using hk)
  · rintro ⟨hfirst, hrest⟩ k hk
    cases k with
    | zero => exact hfirst
    | succ k => exact hrest k (by simpa using hk)

/-- A sink that takes all chunks is fed them all. -/
theorem feed_of_takes (sink : Sink σ) (state : σ) (chunks : List CodeChunk)
    (h : sink.Takes state chunks) :
    sink.feed chunks state = (.ok (), sink.after state chunks) := by
  induction chunks generalizing state with
  | nil => rfl
  | cons chunk rest ih =>
      obtain ⟨hfirst, hrest⟩ := (sink.takes_cons state chunk rest).mp h
      have hnext := ih (sink.emit state chunk).2 hrest
      rw [feed]
      cases hemit : sink.emit state chunk with
      | mk answer next =>
          rw [hemit] at hfirst hnext
          subst hfirst
          simpa [after, hemit] using hnext

/-- Feeding ends at the first chunk that is refused, in the state that the refusal left. -/
theorem feed_of_refused (sink : Sink σ) (state : σ) (chunks : List CodeChunk) (k : Nat)
    (hk : k < chunks.length) (fault : Fault) (htakes : sink.Takes state (chunks.take k))
    (hrefused : (sink.emit (sink.after state (chunks.take k)) chunks[k]).1 = .error fault) :
    sink.feed chunks state = (.error fault, sink.after state (chunks.take (k + 1))) := by
  have hsplit : chunks = chunks.take k ++ chunks[k] :: chunks.drop (k + 1) := by simp
  have hafter : sink.after state (chunks.take (k + 1))
      = (sink.emit (sink.after state (chunks.take k)) chunks[k]).2 := by
    rw [List.take_succ_eq_append_getElem hk, after_append]
    rfl
  have hfeed : sink.feed chunks state
      = sink.feed (chunks.take k ++ chunks[k] :: chunks.drop (k + 1)) state :=
    congrArg (fun cs => sink.feed cs state) hsplit
  rw [hfeed, feed_append, feed_of_takes sink state _ htakes, hafter]
  simp only [feed]
  cases hemit : sink.emit (sink.after state (chunks.take k)) chunks[k] with
  | mk answer next =>
      rw [hemit] at hrefused
      subst hrefused
      rfl

end Sink

/-! ### What a run comes to -/

/-- What a run into a sink comes to: its answer, the state of the sink after it, and the chunks
that the sink was offered, in order. -/
def observe (run : {τ : Type} → Sink τ → Emission τ Nat) (sink : Sink σ) (state : σ) :
    Except Fault Nat × σ × List CodeChunk :=
  (((run sink).outcome state).1, ((run sink).outcome state).2,
    ((run sink.watched).outcome (state, [])).2.2)

section Observed

variable {run : {τ : Type} → Sink τ → Emission τ Nat} {chunks : List CodeChunk}

/-- A run that feeds a list, into a sink that takes it. -/
theorem observe_of_takes {n : Nat}
    (hrun : ∀ {τ : Type} (sink : Sink τ), (run sink).Feeds sink chunks n)
    (sink : Sink σ) (state : σ) (h : sink.Takes state chunks) :
    observe run sink state = (.ok n, sink.after state chunks, chunks) := by
  have hwatched := (sink.takes_watched (state, []) chunks).mpr h
  simp only [observe, (hrun sink).outcome_eq, (hrun sink.watched).outcome_eq,
    sink.feed_of_takes state chunks h, sink.watched.feed_of_takes _ chunks hwatched,
    Sink.after_watched, List.nil_append]

/-- A run that feeds a list, into a sink that refuses a chunk of it. -/
theorem observe_of_refused {n : Nat}
    (hrun : ∀ {τ : Type} (sink : Sink τ), (run sink).Feeds sink chunks n)
    (sink : Sink σ) (state : σ) (k : Nat) (hk : k < chunks.length) (fault : Fault)
    (htakes : sink.Takes state (chunks.take k))
    (hrefused : (sink.emit (sink.after state (chunks.take k)) chunks[k]).1 = .error fault) :
    observe run sink state =
      (.error fault, sink.after state (chunks.take (k + 1)), chunks.take (k + 1)) := by
  have hfeed := sink.feed_of_refused state chunks k hk fault htakes hrefused
  have hwatched : sink.watched.feed chunks (state, [])
      = (.error fault, sink.watched.after (state, []) (chunks.take (k + 1))) := by
    refine sink.watched.feed_of_refused _ chunks k hk fault ?_ ?_
    · exact (sink.takes_watched (state, []) _).mpr htakes
    · rw [Sink.after_watched]
      exact hrefused
  simp only [observe, (hrun sink).outcome_eq, (hrun sink.watched).outcome_eq, hfeed, hwatched,
    Sink.after_watched, List.nil_append]

/-- A run that fails without an offer, whatever the sink. -/
theorem observe_of_fault {fault : Fault}
    (hrun : ∀ {τ : Type} (sink : Sink τ) (state : τ),
      (run sink).outcome state = (.error fault, state))
    (sink : Sink σ) (state : σ) : observe run sink state = (.error fault, state, []) := by
  simp only [observe, hrun]

end Observed

/-! ### Runs of a chunker -/

namespace Chunker

variable (c : Chunker) (provider : SyntaxProvider) (source path : String) (language : Language)

/-- The chunks of a source with a given outline. -/
def chunksOf (outline : Outline) : List CodeChunk :=
  (Extraction.ofOutline c.options (.ofText source) outline path language).typesChunks none
    outline.types

open Emission in
/-- A run over a source that has an outline feeds the chunks of that outline. -/
theorem chunkWith_feeds {outline : Outline} (h : provider source = .ok outline)
    (sink : Sink σ) :
    (c.chunkWith provider source path language sink).Feeds sink
      (c.chunksOf source path language outline)
      (c.chunksOf source path language outline).length := by
  let x := Extraction.ofOutline c.options (.ofText source) outline path language
  have hwalk : Feeds sink (do
      let taken ← x.emitOutline sink outline
      report [note .debug path ("emitted " ++ toString taken ++ " chunks")]
      pure taken) (x.typesChunks none outline.types) (x.typesChunks none outline.types).length := by
    have hlast := (feeds_report sink [note .debug path ("emitted "
      ++ toString (x.typesChunks none outline.types).length ++ " chunks")]).bind
      (k := fun _ => _) (feeds_pure sink (x.typesChunks none outline.types).length)
    have hall := (x.emitTypes_feeds sink none outline.types).bind (k := fun taken => do
      report [note .debug path ("emitted " ++ toString taken ++ " chunks")]
      pure taken) hlast
    rwa [List.append_nil, List.append_nil] at hall
  unfold chunkWith
  rw [h]
  show Feeds sink (if outline.types.isEmpty = true then _ else _) _ _
  split
  · exact (feeds_report sink _).bind (k := fun _ => _) hwalk
  · exact hwalk

/-- A run over a source without an outline fails before anything is offered. -/
theorem chunkWith_outcome_of_fault {fault : Fault} (h : provider source = .error fault)
    (sink : Sink σ) (state : σ) :
    (c.chunkWith provider source path language sink).outcome state = (.error fault, state) := by
  unfold chunkWith
  rw [h]
  rfl

/-- A run over a source in a language feeds some list to every sink, or fails before anything is
offered to any. -/
theorem chunk_feeds_or_faults :
    (∃ chunks, ∀ {τ : Type} (sink : Sink τ),
      (c.chunk source path language sink).Feeds sink chunks chunks.length) ∨
    ∃ fault, ∀ {τ : Type} (sink : Sink τ) (state : τ),
      (c.chunk source path language sink).outcome state = (.error fault, state) := by
  cases language with
  | unknown => exact .inr ⟨_, fun sink state => rfl⟩
  | java =>
      cases h : Java.Reader.usual.outline source with
      | error fault =>
          exact .inr ⟨fault, c.chunkWith_outcome_of_fault _ source path .java h⟩
      | ok outline => exact .inl ⟨_, c.chunkWith_feeds _ source path .java h⟩

/-- **Streaming is collecting, cut at the first refusal.**  A source without an outline, or in a
language without a reader, offers nothing to any sink.  Any other run leaves some list in a
collecting sink, with its length as the answer; a sink that takes that list is offered it whole,
with the same answer; and a sink that refuses the chunk with number `k`, after it took those
before, is offered the first `k + 1`, its fault is the answer, and its state is the one that the
refusal left. -/
theorem chunkWith_streams_collected (sink : Sink σ) (state : σ) :
    (∀ fault, provider source = .error fault →
      observe (fun s => c.chunkWith provider source path language s) sink state
        = (.error fault, state, [])) ∧
    (language.supported = false →
      observe (fun s => c.chunk source path language s) sink state
        = (.error (.unsupportedLanguage (language.label ++ " (" ++ path ++ ")")), state, [])) ∧
    ∀ outline, provider source = .ok outline →
      ∃ chunks : List CodeChunk,
        (c.chunkWith provider source path language .collect).outcome []
          = (.ok chunks.length, chunks) ∧
        (sink.Takes state chunks →
          observe (fun s => c.chunkWith provider source path language s) sink state
            = (.ok chunks.length, sink.after state chunks, chunks)) ∧
        ∀ (k : Nat) (hk : k < chunks.length) (fault : Fault),
          sink.Takes state (chunks.take k) →
          (sink.emit (sink.after state (chunks.take k)) chunks[k]).1 = .error fault →
          observe (fun s => c.chunkWith provider source path language s) sink state
            = (.error fault, sink.after state (chunks.take (k + 1)), chunks.take (k + 1)) := by
  refine ⟨?_, ?_, ?_⟩
  · intro fault h
    exact observe_of_fault (fun s t => c.chunkWith_outcome_of_fault provider source path language
      h s t) sink state
  · intro h
    cases language with
    | java => cases h
    | unknown => exact observe_of_fault (fun s t => rfl) sink state
  · intro outline h
    have hfeeds {τ : Type} (s : Sink τ) :=
      c.chunkWith_feeds provider source path language h s
    refine ⟨c.chunksOf source path language outline, ?_, ?_, ?_⟩
    · exact (hfeeds .collect).outcome_collect []
    · exact observe_of_takes hfeeds sink state
    · intro k hk fault htakes hrefused
      exact observe_of_refused hfeeds sink state k hk fault htakes hrefused

end Chunker

end DeclChunk
