import DeclChunk.Java.Tree

/-!
# Rules and how they are read

A grammar is a table of rules; this module says what a rule is and reads a source by one.

* `Rule` — terminals, references to the table, sequence, ordered choice, repetition, a test
  that no listed word comes next, and the grouping of what was read under a construct;
* `Cursor` — a place between two tokens, with the text from there on;
* `Cursor.take` — pass over some characters, and over the blanks and comments after them;
* `Rule.read` — read by a rule: the trees and the cursor after them, or nothing, and in either
  case how far the reading got (`Reach`).

A choice is settled by its first alternative that can be read, a repetition goes on as long as
its item can be read and consumes something, and neither is reconsidered.  Reading is bounded
by a number of steps that the caller gives; each step goes down one rule.
-/

namespace DeclChunk.Java

/-- A rule of a grammar with the references `N`. -/
inductive Rule (N : Type) where
  /-- A terminal and the blanks and comments after it. -/
  | token (t : Terminal)
  /-- A terminal alone. -/
  | raw (t : Terminal)
  /-- Whatever the table says. -/
  | call (n : N)
  /-- Nothing. -/
  | empty
  /-- One rule, then the other. -/
  | seq (a b : Rule N)
  /-- The first rule, or else the second. -/
  | alt (a b : Rule N)
  /-- The rule as often as it can be read. -/
  | many (a : Rule N)
  /-- Nothing, if none of the words comes next. -/
  | avoid (words : List String)
  /-- The rule, with what was read grouped under a construct. -/
  | node (kind : NodeKind) (a : Rule N)
  deriving Inhabited

namespace Rule

variable {N : Type}

/-- One rule after another. -/
def all : List (Rule N) → Rule N
  | [] => .empty
  | [r] => r
  | r :: rest => .seq r (all rest)

/-- The first of some rules that can be read. -/
def oneOf : List (Rule N) → Rule N
  | [] => .token (.symbol "")
  | [r] => r
  | r :: rest => .alt r (oneOf rest)

/-- The rule or nothing. -/
def opt (r : Rule N) : Rule N :=
  .alt r .empty

/-- The rule at least once. -/
def many1 (r : Rule N) : Rule N :=
  .seq r (.many r)

/-- A word of the language. -/
def kw (text : String) : Rule N :=
  .token (.keyword text)

/-- A mark of the language. -/
def sym (text : String) : Rule N :=
  .token (.symbol text)

/-- The rule at least once, with a mark between neighbours. -/
def sepBy1 (mark : String) (r : Rule N) : Rule N :=
  .seq r (.many (.seq (sym mark) r))

/-- The rule at least once, with commas between neighbours. -/
def commas1 (r : Rule N) : Rule N :=
  sepBy1 "," r

/-- The rule any number of times, with commas between neighbours. -/
def commas (r : Rule N) : Rule N :=
  opt (commas1 r)

end Rule

/-! ### Cursors -/

/-- A place between two tokens: the text from there on, where that is, and where the token
before it ended. -/
structure Cursor where
  rest : List Char
  here : Position
  before : Position
  deriving DecidableEq, Repr, Inhabited

/-- The comments among the blanks at the head of a text, and what follows the last of both. -/
def skipGaps (p : Position) (cs : List Char) : List Tree × Position × List Char :=
  match cs with
  | [] => ([], p, [])
  | c :: rest =>
    if isGap c then
      skipGaps (p.step c) rest
    else
      match comment? (c :: rest) with
      | none => ([], p, c :: rest)
      | some (kind, n) =>
        let q := p.advance ((c :: rest).take n)
        let (comments, after) := skipGaps q (rest.drop (n - 1))
        (.comment kind p q :: comments, after)
termination_by cs.length
decreasing_by
  · simp
  · simp only [List.length_drop, List.length_cons]
    omega

namespace Cursor

/-- Pass over `n` characters and no further. -/
def takeRaw (c : Cursor) (n : Nat) : List Tree × Cursor :=
  let stop := c.here.advance (c.rest.take n)
  ([.token c.here stop], ⟨c.rest.drop n, stop, stop⟩)

/-- Pass over `n` characters, and over the blanks and comments after them. -/
def take (c : Cursor) (n : Nat) : List Tree × Cursor :=
  let stop := c.here.advance (c.rest.take n)
  let (comments, here, rest) := skipGaps stop (c.rest.drop n)
  (.token c.here stop :: comments, ⟨rest, here, stop⟩)

end Cursor

/-! ### How far a reading got -/

/-- The furthest place at which a rule could not go on, and whether a closing brace was among
what could have stood there. -/
structure Reach where
  offset : Nat
  tokenRow : Nat
  beforeRow : Nat
  next : Option Char
  closing : Bool
  deriving DecidableEq, Repr, Inhabited

namespace Reach

/-- A rule cannot go on at a cursor. -/
def ofCursor (c : Cursor) (closing : Bool) : Reach :=
  ⟨c.here.offset, c.here.row, c.before.row, c.rest.head?, closing⟩

/-- The further of two places. -/
def furthest : Option Reach → Option Reach → Option Reach
  | none, b => b
  | some a, none => some a
  | some a, some b =>
    if a.offset < b.offset then some b
    else if b.offset < a.offset then some a
    else some { a with closing := a.closing || b.closing }

end Reach

/-! ### Reading -/

/-- What reading by a rule gives. -/
structure Outcome where
  reach : Option Reach
  value : Option (List Tree × Cursor)
  deriving Inhabited

namespace Outcome

/-- The rule was read. -/
def done (trees : List Tree) (c : Cursor) : Outcome :=
  ⟨none, some (trees, c)⟩

/-- The rule cannot be read. -/
def stuck (c : Cursor) (closing : Bool) : Outcome :=
  ⟨some (.ofCursor c closing), none⟩

/-- The same outcome, with another reach taken into account. -/
def reaching (o : Outcome) (r : Option Reach) : Outcome :=
  ⟨Reach.furthest r o.reach, o.value⟩

end Outcome

/-- The construct that ends before a cursor, and the comments that come after it. -/
def group (kind : NodeKind) (start : Cursor) (stop : Cursor) (trees : List Tree) : List Tree :=
  let (inner, trailing) := splitTrailing trees
  .node kind start.here stop.before inner :: trailing

/-- Read by a rule of a table, in a bounded number of steps. -/
def Rule.read {N : Type} (table : N → Rule N) : Nat → Rule N → Cursor → Outcome
  | 0, _, c => .stuck c false
  | steps + 1, rule, c =>
    match rule with
    | .token t =>
      match t.length? c.rest with
      | some n => let (trees, c') := c.take n; .done trees c'
      | none => .stuck c (t == .symbol "\x7d")
    | .raw t =>
      match t.length? c.rest with
      | some n => let (trees, c') := c.takeRaw n; .done trees c'
      | none => .stuck c false
    | .call n => Rule.read table steps (table n) c
    | .empty => .done [] c
    | .seq a b =>
      let first := Rule.read table steps a c
      match first.value with
      | none => first
      | some (ts, c') =>
        let second := Rule.read table steps b c'
        match second.value with
        | none => second.reaching first.reach
        | some (us, c'') => ⟨Reach.furthest first.reach second.reach, some (ts ++ us, c'')⟩
    | .alt a b =>
      let first := Rule.read table steps a c
      match first.value with
      | some _ => first
      | none => (Rule.read table steps b c).reaching first.reach
    | .many a =>
      let first := Rule.read table steps a c
      match first.value with
      | none => ⟨first.reach, some ([], c)⟩
      | some (ts, c') =>
        if c'.here.offset ≤ c.here.offset then ⟨first.reach, some ([], c)⟩
        else
          let others := Rule.read table steps (.many a) c'
          match others.value with
          | none => ⟨Reach.furthest first.reach others.reach, some (ts, c')⟩
          | some (us, c'') => ⟨Reach.furthest first.reach others.reach, some (ts ++ us, c'')⟩
    | .avoid words => if blocked words c.rest then .stuck c false else .done [] c
    | .node kind a =>
      let inner := Rule.read table steps a c
      match inner.value with
      | none => inner
      | some (ts, c') => ⟨inner.reach, some (group kind c c' ts, c')⟩

/-- Without steps nothing is read. -/
theorem Rule.read_zero {N : Type} (table : N → Rule N) (rule : Rule N) (c : Cursor) :
    rule.read table 0 c = .stuck c false := by
  simp only [Rule.read]

end DeclChunk.Java
