import DeclChunk.Chunk
import DeclChunk.Fault
import DeclChunk.Log

/-!
# Sinks

Where chunks go.  A sink keeps a state and, for each chunk it is offered, answers with a new
state and says whether it took the chunk; a refusal also leaves a state behind.

* `Sink σ` — a sink with states in `σ`;
* `Sink.collect` — keeps every chunk and refuses none;
* `Stream σ` — the state of a sink in use together with the records reported so far;
* `Emission σ α` — a computation that offers chunks and reports; it ends at the first refusal
  and keeps the stream as it was then.
-/

namespace DeclChunk

/-- What takes chunks one after another. -/
structure Sink (σ : Type) where
  emit : σ → CodeChunk → Except Fault Unit × σ

/-- The sink that keeps every chunk, newest last. -/
def Sink.collect : Sink (List CodeChunk) where
  emit taken chunk := (.ok (), taken ++ [chunk])

/-- A sink in use: its state and the records reported so far, newest last. -/
structure Stream (σ : Type) where
  state : σ
  logs : List LogRecord := []

/-- A computation over a stream that may end early with a fault. -/
abbrev Emission (σ α : Type) := ExceptT Fault (StateM (Stream σ)) α

namespace Emission

variable {σ : Type}

/-- Offer a chunk to the sink. -/
def offer (sink : Sink σ) (chunk : CodeChunk) : Emission σ Unit :=
  ExceptT.mk fun stream =>
    let (answer, state) := sink.emit stream.state chunk
    (answer, { stream with state := state })

/-- Report records. -/
def report (records : List LogRecord) : Emission σ Unit :=
  ExceptT.mk fun stream =>
    (.ok (), { stream with logs := stream.logs ++ records })

/-- Run from a state of the sink and an empty log. -/
def runFrom {α : Type} (m : Emission σ α) (state : σ) : Except Fault α × Stream σ :=
  (m.run).run { state := state }

end Emission

end DeclChunk
