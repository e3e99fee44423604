import DeclChunk.Text.Blank
import DeclChunk.Text.Quoted

/-!
# Options of a run

What a user can change about the chunks.

* `Options` — whether doc comments go into header chunks, whether imports go into member
  chunks, and the keyword of the wrapper around a member;
* `Options.check` — the wrapper keyword is one word: not empty, without blanks;
* `OptionsFault` — why options are refused, with its text.
-/

namespace DeclChunk

/-- The options of a run, with their defaults. -/
structure Options where
  includeDocComments : Bool := true
  memberImports : Bool := false
  wrapperKeyword : String := "class"
  deriving DecidableEq, Repr, Inhabited

/-- Why options are refused. -/
inductive OptionsFault where
  | emptyKeyword
  | brokenKeyword (keyword : String)
  deriving DecidableEq, Repr

/-- The text of a refusal. -/
def OptionsFault.message : OptionsFault → String
  | .emptyKeyword => "wrapper_keyword must not be empty"
  | .brokenKeyword keyword =>
    "wrapper_keyword (" ++ Text.quoted keyword ++ ") must be a single word"

namespace Options

/-- The options that also put the imports into member chunks. -/
def withMemberImports : Options :=
  { memberImports := true }

/-- What is wrong with the options, if anything is. -/
def check (o : Options) : Option OptionsFault :=
  if o.wrapperKeyword.toList.isEmpty then
    some .emptyKeyword
  else if o.wrapperKeyword.toList.any Text.isBlank then
    some (.brokenKeyword o.wrapperKeyword)
  else
    none

/-- Options pass exactly when the keyword has a character and no blank one. -/
theorem check_eq_none_iff (o : Options) :
    o.check = none ↔
      o.wrapperKeyword.toList ≠ [] ∧ ∀ c ∈ o.wrapperKeyword.toList, Text.isBlank c = false := by
  unfold check
  split
  · rename_i h
    simp only [List.isEmpty_iff] at h
    simp [h]
  · rename_i h
    simp only [List.isEmpty_iff] at h
    split
    · rename_i h'
      simp only [List.any_eq_true] at h'
      obtain ⟨c, hc, hb⟩ := h'
      constructor
      · intro he
        simp at he
      · intro ⟨_, hall⟩
        have := hall c hc
        simp [this] at hb
    · rename_i h'
      simp only [List.any_eq_true, not_exists, not_and, Bool.not_eq_true] at h'
      exact ⟨fun _ => ⟨h, h'⟩, fun _ => rfl⟩

theorem check_default : ({} : Options).check = none := by decide

end Options

end DeclChunk
