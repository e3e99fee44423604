import DeclChunk.Proofs.Java.ImportReading
import DeclChunk.Proofs.Java.PlainReading

/-!
# The texts of imports

An outline records an import as the text that stands in the source, on one line.  Read as a source
of its own, that text says the same again, unless a line comment stands in it: what follows the
comment is then on its line.

* `exists_importDecl_of_mem` — an import among the trees of a source was read as an import, by
  induction along its statements;
* `Written lines f raw` — the characters of an import of a form, from its first token to its
  semicolon;
* `exists_written_of_mem` — **every import of an outline is written in its source**, and its text is
  what is written there, with its blanks squashed;
* `Reader.outline_of_written` — **an import that is written is read**, as the only thing in its
  source;
* `Reader.outline_importText_iff` — **the text of an import reads back as that import exactly when
  no line comment stands in it**.
-/

namespace DeclChunk.Java

open Text Rule

/-! ### Imports among the trees of a source -/

section Trees

variable {c c' : Cursor} {ts : List Tree} {t : Tree} {steps : Nat}

/-- What reading by a construct leaves is that construct and comments. -/
theorem kind_of_mem_node {kind k : NodeKind} {a : Syntax}
    (h : (Rule.node kind a).value table steps c = some (ts, c')) (ht : t ∈ ts)
    (hk : t.isNode k = true) : kind = k := by
  obtain ⟨n, us, -, -, rfl⟩ := exists_of_value_node h
  rcases List.mem_cons.mp ht with rfl | ht
  · exact eq_of_beq hk
  · have hcomment := isComment_of_mem_trailing ht
    cases t with
    | token start stop => cases hk
    | comment kind start stop => cases hk
    | node kind start stop parts => cases hcomment

/-- No type is an import. -/
theorem not_importDecl_of_typeDecl (h : typeDecl.value table steps c = some (ts, c'))
    (ht : t ∈ ts) : ¬ t.isNode .importDecl = true := by
  intro hk
  obtain ⟨n₁, -, hclass | ⟨-, h⟩⟩ := exists_of_value_alt h
  · cases kind_of_mem_node hclass ht hk
  obtain ⟨n₂, -, hinterface | ⟨-, h⟩⟩ := exists_of_value_alt h
  · cases kind_of_mem_node hinterface ht hk
  obtain ⟨n₃, -, henum | ⟨-, h⟩⟩ := exists_of_value_alt h
  · cases kind_of_mem_node henum ht hk
  obtain ⟨n₄, -, hrecord | ⟨-, hannotation⟩⟩ := exists_of_value_alt h
  · cases kind_of_mem_node hrecord ht hk
  · cases kind_of_mem_node hannotation ht hk

/-- An import among what a statement leaves was read as an import. -/
theorem importDecl_of_statement (h : statement.value table steps c = some (ts, c')) (ht : t ∈ ts)
    (hk : t.isNode .importDecl = true) : ∃ n, importDecl.value table n c = some (ts, c') := by
  obtain ⟨n₁, -, hclosed | ⟨-, h⟩⟩ := exists_of_value_alt h
  · cases kind_of_mem_node hclosed ht hk
  obtain ⟨n₂, -, htype | ⟨-, h⟩⟩ := exists_of_value_alt h
  · cases n₂ with
    | zero => cases htype
    | succ n =>
        have htype : typeDecl.value table n c = some (ts, c') := htype
        exact absurd hk (not_importDecl_of_typeDecl htype ht)
  obtain ⟨n₃, -, himport | ⟨-, h⟩⟩ := exists_of_value_alt h
  · exact ⟨n₃, himport⟩
  obtain ⟨n₄, -, hpackage | ⟨-, hclosed⟩⟩ := exists_of_value_alt h
  · cases kind_of_mem_node hpackage ht hk
  · cases kind_of_mem_node hclosed ht hk

/-- What stands at the top of a file. -/
abbrev topItem : Syntax :=
  oneOf [.call .statement, methodDecl (statementWords ++ contextualWords ++ valueWords)]

theorem importDecl_of_topItem (h : topItem.value table steps c = some (ts, c')) (ht : t ∈ ts)
    (hk : t.isNode .importDecl = true) : ∃ n, importDecl.value table n c = some (ts, c') := by
  obtain ⟨n, -, hstatement | ⟨-, hmethod⟩⟩ := exists_of_value_alt h
  · cases n with
    | zero => cases hstatement
    | succ n =>
        have hstatement : statement.value table n c = some (ts, c') := hstatement
        exact importDecl_of_statement hstatement ht hk
  · cases kind_of_mem_node hmethod ht hk

/-- **An import at the top of a file was read as an import**, at a place of the source. -/
theorem exists_importDecl_of_mem {source : List Char} (hc : c.Placed source)
    (h : topLevel.value table steps c = some (ts, c')) (ht : t ∈ ts)
    (hk : t.isNode .importDecl = true) :
    ∃ n c₁ c₂ us, c₁.Placed source ∧ importDecl.value table n c₁ = some (us, c₂) ∧ t ∈ us := by
  induction steps generalizing c ts with
  | zero => cases h
  | succ n ih =>
      rcases exists_of_value_many h with ⟨rfl, -⟩ | ⟨m, ts₁, c₁, hm, hitem, hlater⟩
      · cases ht
      · obtain rfl : n = m := by omega
        have hfirst (ht₁ : t ∈ ts₁) : ∃ n c₁ c₂ us, c₁.Placed source ∧
            importDecl.value table n c₁ = some (us, c₂) ∧ t ∈ us := by
          obtain ⟨k, himport⟩ := importDecl_of_topItem hitem ht₁ hk
          exact ⟨k, c, c₁, ts₁, hc, himport, ht₁⟩
        rcases hlater with ⟨rfl, -⟩ | ⟨ts₂, hmany, rfl⟩
        · exact hfirst ht
        · rcases List.mem_append.mp ht with ht | ht
          · exact hfirst ht
          · exact ih (placed_of_value hc (by decide +kernel) hitem) hmany ht

end Trees

/-! ### Imports in a source -/

/-- The characters of an import of a form, from its first token to its semicolon; `lines` says
whether a line comment is among them. -/
def Written (lines : Bool) (f : ImportForm) (raw : List Char) : Prop :=
  Spells lines f.tokens raw [';']

namespace Written

variable {lines : Bool} {f : ImportForm} {raw : List Char}

theorem exists_body (h : Written lines f raw) :
    ∃ body, raw = body ++ [';'] ∧ ∀ after, Spells lines f.tokens (raw ++ after) (';' :: after) := by
  obtain ⟨body, rfl, hbody⟩ := Spells.change_rest h
  refine ⟨body, rfl, fun after => ?_⟩
  rw [List.append_assoc]
  exact hbody (';' :: after) rfl

theorem getLast?_eq (h : Written lines f raw) : raw.getLast? = some ';' := by
  obtain ⟨body, rfl, -⟩ := h.exists_body
  exact List.getLast?_concat

theorem collapse_eq (h : Written lines f raw) :
    collapse (String.ofList raw) = String.ofList (squash raw) := by
  refine collapse_eq_squash (Spells.inkFirst h (inkFirst_cons.mpr rfl)) ?_
  intro c hc
  rw [h.getLast?_eq] at hc
  obtain rfl : ';' = c := by simpa using hc
  rfl

/-- A line comment stands in an import where two slashes outside block comments do. -/
theorem opensLineComment_eq (h : Written lines f raw) : opensLineComment raw = lines := by
  rw [opensLineComment, Spells.after? h]
  cases lines <;> rfl

theorem squash (h : Written false f raw) : Written false f (squash raw) :=
  Spells.squash h rfl (inkFirst_cons.mpr rfl)

end Written

/-- Whether a part of a construct is of a kind. -/
theorem isSome_part? {kind k : NodeKind} {start stop : Position} {parts : List Tree} :
    ((Tree.node kind start stop parts).part? k).isSome = parts.any (Tree.isNode k) := by
  rw [Bool.eq_iff_iff, Tree.part?, List.find?_isSome, List.any_eq_true]
  rfl

/-- The import that a construct declares, when it goes from some characters to those after it. -/
theorem importOf_written {source after : List Char} {lines : Bool} {f : ImportForm}
    {raw : List Char} {inner : List Tree} (hraw : Written lines f raw)
    (hsuffix : raw ++ after <:+ source) (hmarks : Marked f.isStatic f.isWildcard inner) :
    importOf source (.node .importDecl (left source (raw ++ after)) (left source after) inner)
      = ⟨f.kind, String.ofList (squash raw),
          ⟨lineOf source (raw ++ after), lineOf source (raw ++ after) + raw.count '\n'⟩⟩ := by
  rw [importOf, isSome_part?, isSome_part?, hmarks.1, hmarks.2, Tree.text, Tree.span]
  show ImportDecl.mk f.kind
    (collapse (textBetween source (left source (raw ++ after)) (left source after)))
    (spanOf (left source (raw ++ after)) (left source after)) = _
  rw [textBetween_left raw hsuffix, hraw.collapse_eq,
    spanOf_left hraw.getLast?_eq (by decide) hsuffix]

/-- **Every import of an outline is written in its source**, and its text is what is written there
with its blanks squashed. -/
theorem exists_written_of_mem {r : Reader} {source : String} {o : Outline}
    (h : r.outline source = .ok o) {i : ImportDecl} (hi : i ∈ o.imports) :
    ∃ lines f raw, Written lines f raw ∧ raw <:+: source.toList ∧ i.kind = f.kind ∧
      i.text = String.ofList (squash raw) := by
  obtain ⟨trees, hread, rfl⟩ := Reader.exists_trees_of_outline h
  obtain ⟨t, ht, rfl⟩ := List.mem_map.mp hi
  obtain ⟨ht, hk⟩ := List.mem_filter.mp ht
  obtain ⟨last, hvalue, -⟩ := value_of_readAll (readAll_of_readSource hread)
  obtain ⟨n, c, c', us, hc, himport, hus⟩ :=
    exists_importDecl_of_mem (placed_firstCursor _) hvalue ht hk
  obtain ⟨f, lines, after, inner, comments, hrow, rfl, hmarks, hcomments⟩ :=
    ImportForm.exists_of_value hc himport
  obtain ⟨body, hrest, hbody⟩ := hrow.change_rest
  have hraw : Written lines f (body ++ [';']) := hbody [';'] rfl
  have htext : c.rest = (body ++ [';']) ++ after := by
    rw [hrest, List.append_assoc]
    rfl
  have hsuffix : (body ++ [';']) ++ after <:+ source.toList := htext ▸ hc.rest_suffix
  have hnode : t = .node .importDecl (left source.toList ((body ++ [';']) ++ after))
      (left source.toList after) inner := by
    rw [← htext, ← hc.here_eq_left]
    rcases List.mem_cons.mp hus with rfl | hmem
    · rfl
    · have hcomment := hcomments t hmem
      cases t with
      | token start stop => cases hcomment
      | comment kind start stop => cases hk
      | node kind start stop parts => cases hcomment
  have himportOf := importOf_written hraw hsuffix hmarks
  rw [← hnode] at himportOf
  refine ⟨lines, f, _, hraw, ?_, congrArg ImportDecl.kind himportOf,
    congrArg ImportDecl.text himportOf⟩
  obtain ⟨front, hfront⟩ := hsuffix
  exact ⟨front, after, by rw [List.append_assoc, hfront]⟩

/-! ### Sources of one import -/

/-- An import at the top of a file is no other statement. -/
theorem value_topItem {c c' : Cursor} {ts : List Tree} {steps : Nat} {rest : List Char}
    (hhead : c.rest = "import".toList ++ rest) (hstops : Stops rest)
    (h : ∀ n, steps ≤ n → importDecl.value table n c = some (ts, c')) :
    ∀ n, steps + 5 ≤ n → topItem.value table n c = some (ts, c') := by
  have hbegins : Head.Begins (.word "import") c.rest := by
    rw [hhead]
    exact .word (by decide) hstops
  have hrefused (a : Syntax) (ha : a.verdict table (.word "import") 50 = .refused) (n : Nat) :
      a.value table n c = none := by
    have hsound := verdict_sound table hbegins 50 a n
    rwa [ha] at hsound
  intro n hn
  obtain ⟨n, rfl⟩ : ∃ k, n = k + 5 := ⟨n - 5, by omega⟩
  have hstatement : statement.value table (n + 3) c = some (ts, c') := by
    show (Rule.alt _ (Rule.alt _ (Rule.alt importDecl _))).value table (n + 3) c = _
    rw [value_alt, hrefused _ (by decide +kernel), Option.none_or, value_alt,
      hrefused _ (by decide +kernel), Option.none_or, value_alt, h n (by omega), Option.some_or]
  show (Rule.alt (.call .statement) _).value table (n + 5) c = _
  rw [value_alt, value_call]
  show (statement.value table (n + 3) c).or _ = _
  rw [hstatement, Option.some_or]

/-- Nothing stands at the end of a file. -/
theorem value_topItem_end {c : Cursor} (hend : c.rest = []) (n : Nat) :
    topItem.value table n c = none := by
  have hbegins : Head.Begins .ended c.rest := by
    rw [hend]
    exact .ended
  have hverdict : topItem.verdict table .ended 50 = .refused := by decide +kernel
  have hsound := verdict_sound table hbegins 50 topItem n
  rwa [hverdict] at hsound

namespace Written

variable {lines : Bool} {f : ImportForm} {raw : List Char}

/-- An import begins with its word. -/
theorem exists_tail (h : Written lines f raw) :
    ∃ tail, raw = "import".toList ++ tail ∧ Stops (tail ++ ['\n']) := by
  obtain ⟨tail, htail, hstops⟩ := Spells.exists_tail h
  refine ⟨tail, htail, ?_⟩
  cases tail with
  | nil => exact stops_cons (by decide)
  | cons c cs => exact hstops (by decide)

theorem length_more_le (h : Written lines f raw) : f.more.length ≤ raw.length :=
  Nat.le_trans f.length_more_le (Spells.length_le h)

/-- The trees of a source that consists of an import: the import and comments. -/
theorem exists_readSource (h : Written lines f raw) :
    ∃ inner comments, readSource (raw ++ ['\n'])
        = .ok (.node .importDecl (left (raw ++ ['\n']) (raw ++ ['\n']))
            (left (raw ++ ['\n']) ['\n']) inner :: comments) ∧
      Marked f.isStatic f.isWildcard inner ∧ ∀ t ∈ comments, t.isComment = true := by
  obtain ⟨tail, htail, hstops⟩ := h.exists_tail
  obtain ⟨body, -, hrow⟩ := h.exists_body
  let source := raw ++ ['\n']
  have hsource : source = "import".toList ++ (tail ++ ['\n']) := by
    show raw ++ ['\n'] = _
    rw [htail, List.append_assoc]
  -- the first token stands at the head of the source
  have hfirst : firstCursor source = ⟨source, .start, .start⟩ := by
    have hstart : afterByteOrderMark source = (.start, source) := by
      rw [hsource]
      rfl
    have hsolid : Solid source := by
      rw [hsource]
      exact solid_cons (by decide) (by decide)
    rw [firstCursor, hstart]
    simp only [skipGaps_solid hsolid]
  have hrest : (firstCursor source).rest = source := by rw [hfirst]
  have hc := placed_firstCursor source
  have hfaces : Faces f.tokens (';' :: ['\n']) (firstCursor source) := by
    refine ⟨lines, ?_⟩
    rw [hrest]
    exact hrow ['\n']
  obtain ⟨inner, comments, c', hvalue, hmarks, hcomments, hplaced, hend⟩ :=
    f.reaches hc hfaces (.blank (by decide) .nil)
  refine ⟨inner, comments, ?_, hmarks, hcomments⟩
  have hitem := value_topItem (hrest.trans hsource) hstops hvalue
  have hmove : ¬ c'.here.offset ≤ (firstCursor source).here.offset := by
    rw [hplaced.here_eq_left, hend, hfirst, offset_left]
    show ¬ source.length - 0 ≤ 0
    rw [hsource]
    simp
  have hsteps : 4 * f.more.length + 18 + 6 ≤ stepBound source := by
    have hmore := h.length_more_le
    rw [stepBound]
    show _ ≤ 1000 * ((raw ++ ['\n']).length + 2)
    rw [List.length_append]
    omega
  obtain ⟨n, hn⟩ : ∃ n, stepBound source = n + 2 := ⟨stepBound source - 2, by omega⟩
  have htop : topLevel.value table (stepBound source) (firstCursor source)
      = some (.node .importDecl (firstCursor source).here (left source ['\n']) inner :: comments,
          c') := by
    rw [hn]
    show (Rule.many topItem).value table (n + 1 + 1) (firstCursor source) = _
    rw [value_many, hitem (n + 1) (by omega)]
    simp only [if_neg hmove, value_many, value_topItem_end hend, List.append_nil]
  have hall : readAll (firstCursor source)
      = .ok (.node .importDecl (firstCursor source).here (left source ['\n']) inner :: comments) :=
    readAll_of_value (by rwa [hrest]) hend
  rw [readSource, hall, hc.here_eq_left, hrest]
  rfl

end Written

/-- An outline of an import and comments has that import and nothing else. -/
theorem outlineOf_import (source : List Char) (initializer : Option String) {start stop : Position}
    {inner comments : List Tree} (hcomments : ∀ t ∈ comments, t.isComment = true) :
    outlineOf source initializer (.node .importDecl start stop inner :: comments)
      = { imports := [importOf source (.node .importDecl start stop inner)] } := by
  have hnodes (k : NodeKind) : comments.filter (Tree.isNode k) = [] := by
    rw [List.filter_eq_nil_iff]
    exact fun t ht => List.any_eq_false.mp (any_isNode_comments hcomments k) t ht
  have htypes : comments.filterMap (typeDecl? source initializer 0) = [] := by
    rw [List.filterMap_eq_nil_iff]
    intro t ht
    have hcomment := hcomments t ht
    cases t with
    | token start stop => rw [typeDecl?]
    | comment kind start stop => rw [typeDecl?]
    | node kind start stop parts => cases hcomment
  have himport : typeDecl? source initializer 0 (.node .importDecl start stop inner) = none := by
    rw [typeDecl?]
    rfl
  have hpackage : (Tree.node .importDecl start stop inner :: comments).filter
      (Tree.isNode .packageDecl) = [] := by
    rw [List.filter_cons_of_neg (by simp [Tree.isNode]), hnodes]
  have himports : (Tree.node .importDecl start stop inner :: comments).filter
      (Tree.isNode .importDecl) = [.node .importDecl start stop inner] := by
    rw [List.filter_cons_of_pos (by simp [Tree.isNode]), hnodes]
  rw [outlineOf, hpackage, himports, List.filterMap_cons, himport, htypes]
  rfl

/-- **An import that is written is read**, with its blanks squashed, as the only thing in its
source. -/
theorem Reader.outline_of_written (r : Reader) {lines : Bool} {f : ImportForm} {raw : List Char}
    (h : Written lines f raw) :
    r.outline (String.ofList (raw ++ ['\n'])) = .ok { imports :=
      [⟨f.kind, String.ofList (squash raw), ⟨1, 1 + raw.count '\n'⟩⟩] } := by
  obtain ⟨inner, comments, hread, hmarks, hcomments⟩ := h.exists_readSource
  have hline : lineOf (raw ++ ['\n']) (raw ++ ['\n']) = 1 := by
    rw [lineOf]
    omega
  rw [r.outline_of_readSource hread, outlineOf_import _ _ hcomments,
    importOf_written h (List.suffix_refl _) hmarks, hline]

/-! ### The texts of imports -/

/-- **The text of an import reads back as that import exactly when no line comment stands in it.**
For every source that is read and every import in it, however its tokens are laid out, the text of
the import with a line feed is a source with no package, no types and that import alone, of the same
kind and with the same text, unless two slashes outside block comments stand in the text.  What is
read back is on the only line there is. -/
theorem Reader.outline_importText_iff (r : Reader) {source : String} {o : Outline}
    (h : r.outline source = .ok o) {i : ImportDecl} (hi : i ∈ o.imports) :
    ((∃ span, r.outline (i.text ++ "\n") = .ok { imports := [{ i with span := span }] }) ↔
      opensLineComment i.text.toList = false) ∧
    ∀ span, r.outline (i.text ++ "\n") = .ok { imports := [{ i with span := span }] } →
      span = ⟨1, 1⟩ := by
  obtain ⟨lines, f, raw, hraw, -, hkind, htext⟩ := exists_written_of_mem h hi
  have hlines : opensLineComment i.text.toList = lines := by
    rw [htext, String.toList_ofList, opensLineComment_squash, hraw.opensLineComment_eq]
  have hsource : i.text ++ "\n" = String.ofList (squash raw ++ ['\n']) := by
    rw [htext, String.ofList_append]
  have hfeed : '\n' ∉ squash raw := by
    intro hmem
    exact absurd (eq_space_of_mem_squash hmem (by decide)) (by decide)
  have hback (hline : lines = false) :
      r.outline (i.text ++ "\n") = .ok { imports := [{ i with span := ⟨1, 1⟩ }] } := by
    subst hline
    have hread := r.outline_of_written hraw.squash
    rw [squash_squash, List.count_eq_zero.mpr hfeed, ← hkind, ← htext, ← hsource] at hread
    exact hread
  have hnone {span : LineSpan}
      (hread : r.outline (i.text ++ "\n") = .ok { imports := [{ i with span := span }] }) :
      lines = false := by
    obtain ⟨lines', f', raw', hraw', ⟨front, after, hinside⟩, -, htext'⟩ :=
      exists_written_of_mem hread (List.mem_singleton_self _)
    have hsquash : squash raw = squash raw' := String.ofList_injective (htext.symm.trans htext')
    have hsame : lines = lines' := by
      rw [← hraw.opensLineComment_eq, ← opensLineComment_squash, hsquash, opensLineComment_squash,
        hraw'.opensLineComment_eq]
    by_contra hline
    -- a line comment would have a line feed in front of the semicolon
    obtain ⟨body, hbody, hmem⟩ := Spells.lineFeed_mem hraw'
    have hfront : front ++ body ++ (';' :: after).dropLast = squash raw := by
      rw [hsource, String.toList_ofList, hbody, List.append_assoc, List.append_assoc,
        ← List.append_assoc] at hinside
      have hdrop := congrArg List.dropLast hinside
      rwa [List.dropLast_append_of_ne_nil (by simp), List.dropLast_concat] at hdrop
    apply hfeed
    rw [← hfront]
    exact List.mem_append_left _ (List.mem_append_right _ (hmem (hsame ▸ by simpa using hline)))
  rw [hlines]
  refine ⟨⟨fun ⟨span, hread⟩ => hnone hread, fun hline => ⟨_, hback hline⟩⟩, ?_⟩
  intro span hread
  have hone := hback (hnone hread)
  rw [hread] at hone
  have himports := congrArg Outline.imports (Except.ok.inj hone)
  exact congrArg ImportDecl.span (List.cons.inj himports).1

/-- A source whose imports are known is read. -/
theorem Reader.exists_outline_of_imports {r : Reader} {source : String} {imports : List ImportDecl}
    (h : (r.outline source).toOption.map (·.imports) = some imports) :
    ∃ o, r.outline source = .ok o ∧ o.imports = imports := by
  cases hread : r.outline source with
  | error fault =>
      rw [hread] at h
      cases h
  | ok o =>
      rw [hread] at h
      exact ⟨o, rfl, Option.some.inj h⟩

/-- An import with blanks, lines and a block comment between its tokens. -/
def spreadImport : String :=
  "import static\n  a . /* // */ B\n.*\n;\n"

/-- What an outline has of it. -/
def spreadImportDecl : ImportDecl :=
  ⟨.staticWildcard, "import static a . /* // */ B .* ;", ⟨1, 4⟩⟩

theorem Reader.outline_importText_iff_spreadImport :
    ∃ o : Outline, usual.outline spreadImport = .ok o ∧ spreadImportDecl ∈ o.imports ∧
      ((∃ span, usual.outline (spreadImportDecl.text ++ "\n")
          = .ok { imports := [{ spreadImportDecl with span := span }] }) ↔
        opensLineComment spreadImportDecl.text.toList = false) ∧
      usual.outline (spreadImportDecl.text ++ "\n")
        = .ok { imports := [{ spreadImportDecl with span := ⟨1, 1⟩ }] } := by
  obtain ⟨o, hread, himports⟩ := exists_outline_of_imports
    (show (usual.outline spreadImport).toOption.map (·.imports) = some [spreadImportDecl] by
      decide +kernel)
  have hmem : spreadImportDecl ∈ o.imports := himports ▸ List.mem_singleton_self _
  obtain ⟨hiff, hline⟩ := usual.outline_importText_iff hread hmem
  obtain ⟨span, hback⟩ := hiff.mpr (by decide)
  obtain rfl := hline span hback
  exact ⟨o, hread, hmem, hiff, hback⟩

/-- The semicolon after a line comment is part of the comment in the text of an import, which then
is not read at all. -/
theorem Reader.not_isOk_outline_importText :
    ∃ (o : Outline) (i : ImportDecl), usual.outline "import a.b // c\n;\n" = .ok o ∧
      i ∈ o.imports ∧ i.text = "import a.b // c ;" ∧
      (usual.outline (i.text ++ "\n")).isOk = false := by
  obtain ⟨o, hread, himports⟩ := exists_outline_of_imports
    (show (usual.outline "import a.b // c\n;\n").toOption.map (·.imports)
      = some [⟨.explicit, "import a.b // c ;", ⟨1, 2⟩⟩] by decide +kernel)
  exact ⟨o, ⟨.explicit, "import a.b // c ;", ⟨1, 2⟩⟩, hread, himports ▸ List.mem_singleton_self _,
    rfl, by decide +kernel⟩

end DeclChunk.Java
