import FormDesign.Proofs.Xml.Reader

/-!
# Printed documents are read back

The reader gets back what was printed, however it is indented. A document is read piece by piece: a
run of white space, a name, the attributes, a text, a comment and at last a whole node, each from
whatever was built before it.

* `Xml.unescape?_escape`: escapes are undone
* `Xml.Reads`: what the reader makes of a piece
* `Xml.Readable`: the nodes that can be read back
* `Xml.reads_print`: a node is read back
* `Xml.read_document`: a document is read back
-/

namespace FormDesign

namespace Xml

/-! ## Characters -/

theorem isNameChar_of_isNameStart {c : Char} (h : isNameStart c = true) : isNameChar c = true := by
  rw [isNameChar, h, Bool.true_or]

/-- A name goes on with characters other than those that end it. -/
theorem ne_of_isNameChar {c d : Char} (h : isNameChar c = true) (hd : isNameChar d = false) :
    c ≠ d := by
  rintro rfl
  rw [h] at hd
  cases hd

theorem exists_of_isName {s : String} (h : isName s = true) :
    ∃ c rest, s.toList = c :: rest ∧ isNameStart c = true ∧ ∀ d ∈ rest, isNameChar d = true := by
  unfold isName at h
  split at h
  · cases h
  · next c rest hs =>
    obtain ⟨first, others⟩ := Bool.and_eq_true_iff.1 h
    exact ⟨c, rest, hs, first, List.all_eq_true.1 others⟩

/-! ## Escapes -/

/-- A character that is no ampersand stands for itself. -/
theorem unescape?_cons {c : Char} (h : c ≠ '&') (rest : List Char) :
    unescape? (c :: rest) = (unescape? rest).map (c :: ·) := by
  rw [unescape?]
  all_goals simp_all

theorem unescape?_escapeChar (c : Char) (rest : List Char) :
    unescape? (escapeChar c ++ rest) = (unescape? rest).map (c :: ·) := by
  unfold escapeChar
  split
  case h_6 lt gt amp apos quot => exact unescape?_cons amp rest
  all_goals rfl

/-- **Escapes are undone.** -/
theorem unescape?_escape (s : String) : unescape? (escape s).toList = some s.toList := by
  rw [escape, String.toList_ofList]
  induction s.toList with
  | nil => rfl
  | cons c rest ih => rw [List.flatMap_cons, unescape?_escapeChar, ih, Option.map_some]

theorem ne_of_mem_escapeChar {c d : Char} (h : c ∈ escapeChar d) : c ≠ '<' ∧ c ≠ '"' := by
  have plain {s : List Char} (hs : s.all (fun c => c != '<' && c != '"') = true) (h : c ∈ s) :
      c ≠ '<' ∧ c ≠ '"' := by
    simpa using List.all_eq_true.1 hs c h
  unfold escapeChar at h
  split at h
  case h_6 lt gt amp apos quot =>
    obtain rfl := List.mem_singleton.1 h
    exact ⟨lt, quot⟩
  all_goals exact plain (by decide) h

/-- What ends texts and values does not stand in them. -/
theorem ne_of_mem_escape {s : String} {c : Char} (h : c ∈ (escape s).toList) :
    c ≠ '<' ∧ c ≠ '"' := by
  rw [escape, String.toList_ofList] at h
  obtain ⟨d, -, hc⟩ := List.mem_flatMap.1 h
  exact ne_of_mem_escapeChar hc

/-- White space has no entities in it. -/
theorem unescape?_of_spaces {s : List Char} (h : ∀ c ∈ s, isSpace c = true) :
    unescape? s = some s := by
  induction s with
  | nil => rfl
  | cons c rest ih =>
    obtain ⟨hc, hrest⟩ := List.forall_mem_cons.1 h
    have away : c ≠ '&' := by
      rintro rfl
      cases hc
    rw [unescape?_cons away, ih hrest, Option.map_some]

/-! ## Reading a piece -/

/-- The reader `r` becomes `r'` when it reads a piece. -/
def Reads (piece : List Char) (r r' : Reader) : Prop :=
  piece.foldlM Reader.step r = some r'

namespace Reads

variable {piece piece' : List Char} {r r' r'' : Reader} {b b' : Builder} {c : Char}

theorem nil : Reads [] r r := rfl

theorem append (h : Reads piece r r') (h' : Reads piece' r' r'') :
    Reads (piece ++ piece') r r'' := by
  unfold Reads at *
  rw [List.foldlM_append, h]
  exact h'

theorem cons (first : r.step c = some r') (h : Reads piece r' r'') : Reads (c :: piece) r r'' := by
  unfold Reads at *
  rw [List.foldlM_cons, first]
  exact h

theorem one (first : r.step c = some r') : Reads [c] r r' :=
  cons first nil

/-- A mode that keeps what it reads. -/
theorem run {m : List Char → Mode}
    (keeps : ∀ seen, ∀ c ∈ piece, Reader.step ⟨b, m seen⟩ c = some ⟨b, m (seen ++ [c])⟩)
    (seen : List Char) : Reads piece ⟨b, m seen⟩ ⟨b, m (seen ++ piece)⟩ := by
  induction piece generalizing seen with
  | nil => simpa using nil
  | cons c rest ih =>
    have others := ih (fun seen d hd => keeps seen d (List.mem_cons_of_mem _ hd)) (seen ++ [c])
    rw [List.append_assoc, List.singleton_append] at others
    exact cons (keeps seen c List.mem_cons_self) others

/-- Whatever does not open a tag goes to the text. -/
theorem text (h : ∀ c ∈ piece, c ≠ '<') (seen : List Char) :
    Reads piece ⟨b, .text seen⟩ ⟨b, .text (seen ++ piece)⟩ :=
  run (m := .text) (fun _ c hc => if_neg (h c hc)) seen

/-- A name, of which the first character made a mode for names of the reader. -/
theorem name {m : List Char → Mode} {s : String} (h : isName s = true)
    (first : ∀ c, isNameStart c = true → r.step c = some ⟨b, m [c]⟩)
    (keeps : ∀ seen c, isNameChar c = true →
      Reader.step ⟨b, m seen⟩ c = some ⟨b, m (seen ++ [c])⟩) :
    Reads s.toList r ⟨b, m s.toList⟩ := by
  obtain ⟨c, rest, hs, hc, hrest⟩ := exists_of_isName h
  rw [hs]
  exact cons (first c hc) (run (fun seen d hd => keeps seen d (hrest d hd)) [c])

/-! ## Tags -/

theorem tagName {s : String} (h : isName s = true) :
    Reads s.toList ⟨b, .markup⟩ ⟨b, .tagName s.toList⟩ :=
  name (m := .tagName) h (fun _ hc => if_pos hc) fun _ _ hc => if_pos hc

theorem endName {s : String} (h : isName s = true) :
    Reads s.toList ⟨b, .endName []⟩ ⟨b, .endName s.toList⟩ := by
  have away (c : Char) (hc : isNameChar c = true) : c ≠ '>' := ne_of_isNameChar hc (by decide)
  exact name (m := .endName) h (fun c hc => if_neg (away c (isNameChar_of_isNameStart hc)))
    fun _ c hc => if_neg (away c hc)

/-- The value of an attribute. -/
theorem value (t : StartTag) (key value : String) :
    Reads ((escape value).toList ++ ['"']) ⟨b, .value t key '"' []⟩
      ⟨b, .tag { t with attributes := t.attributes ++ [(key, value)] }⟩ := by
  refine append (run (m := .value t key '"')
    (fun _ c hc => if_neg (ne_of_mem_escape hc).2) []) (one ?_)
  simp [Reader.step, unescape?_escape]

/-- An attribute with the blank before it. -/
theorem attr (t : StartTag) {key : String} (h : isName key = true) (v : String) :
    Reads (" " ++ key ++ "=\"" ++ escape v ++ "\"").toList ⟨b, .tag t⟩
      ⟨b, .tag { t with attributes := t.attributes ++ [(key, v)] }⟩ := by
  have blank : Reads [' '] ⟨b, .tag t⟩ ⟨b, .tag t⟩ := one rfl
  have named : Reads key.toList ⟨b, .tag t⟩ ⟨b, .key t key.toList⟩ :=
    name (m := .key t) h (fun _ hc => if_pos hc) fun _ _ hc => if_pos hc
  have equals : Reads ['=', '"'] ⟨b, .key t key.toList⟩ ⟨b, .value t key '"' []⟩ := by
    have step : Reader.step ⟨b, .key t key.toList⟩ '=' = some ⟨b, .equals t key⟩ := by
      simp [Reader.step, show isNameChar '=' = false by decide]
    exact cons step (one rfl)
  simp only [String.toList_append, List.append_assoc]
  exact blank.append (named.append (equals.append (value t key v)))

theorem attributes (t : StartTag) {attributes : List (String × String)}
    (h : ∀ a ∈ attributes, isName a.1 = true) :
    Reads (printAttributes attributes).toList ⟨b, .tag t⟩
      ⟨b, .tag { t with attributes := t.attributes ++ attributes }⟩ := by
  induction attributes generalizing t with
  | nil => simpa [printAttributes] using nil
  | cons a rest ih =>
    obtain ⟨ha, hrest⟩ := List.forall_mem_cons.1 h
    have others := ih { t with attributes := t.attributes ++ [a] } hrest
    rw [printAttributes, List.map_cons, String.join_cons, String.toList_append]
    rw [List.append_assoc, List.singleton_append] at others
    exact (attr t ha a.2).append others

/-- Behind the name of a tag stands no character of the name. -/
theorem tagName_iff {name : String} (hc : isNameChar c = false) :
    Reads (c :: piece) ⟨b, .tagName name.toList⟩ r ↔
      Reads (c :: piece) ⟨b, .tag { name, attributes := [] }⟩ r := by
  have step : Reader.step ⟨b, .tagName name.toList⟩ c
      = Reader.step ⟨b, .tag { name, attributes := [] }⟩ c := by
    simp [Reader.step, hc]
  unfold Reads
  rw [List.foldlM_cons, List.foldlM_cons, step]

/-- A start tag up to its last character. -/
theorem startTag {name : String} {attributes : List (String × String)} {last : Char}
    (hname : isName name = true) (hattributes : ∀ a ∈ attributes, isName a.1 = true)
    (hlast : isNameChar last = false)
    (step : Reader.step ⟨b, .tag { name, attributes }⟩ last = some r) :
    Reads (name.toList ++ (printAttributes attributes).toList ++ [last]) ⟨b, .markup⟩ r := by
  have others : Reads ((printAttributes attributes).toList ++ [last])
      ⟨b, .tag { name, attributes := [] }⟩ r :=
    append (Reads.attributes _ hattributes) (one step)
  rw [List.append_assoc]
  refine append (tagName hname) ?_
  -- the name ends at the last character of the tag or at the blank before an attribute
  cases attributes with
  | nil => exact (tagName_iff hlast).2 others
  | cons a rest =>
    obtain ⟨piece, hpiece⟩ : ∃ piece, (printAttributes (a :: rest)).toList = ' ' :: piece := by
      simp only [printAttributes, List.map_cons, String.join_cons, String.toList_append]
      exact ⟨_, rfl⟩
    rw [hpiece] at others ⊢
    exact (tagName_iff (by decide)).2 others

/-- An end tag behind its bracket. -/
theorem endTag {name : String} (hname : isName name = true) (close : b.closeTag? name = some b') :
    Reads ("/" ++ name ++ ">").toList ⟨b, .markup⟩ ⟨b', .text []⟩ := by
  have slash : Reads ['/'] ⟨b, .markup⟩ ⟨b, .endName []⟩ := one rfl
  have closed : Reads ['>'] ⟨b, .endName name.toList⟩ ⟨b', .text []⟩ :=
    one (by simp [Reader.step, close])
  simp only [String.toList_append]
  exact (slash.append (endName hname)).append closed

/-- The bracket of a tag ends the text before it. -/
theorem bracket {run text : List Char} (h : unescape? run = some text) :
    Reads ['<'] ⟨b, .text run⟩ ⟨b.addText text, .markup⟩ :=
  one (by simp [Reader.step, h])

/-- A processing instruction behind its first question mark is passed over. -/
theorem instruction {closing : Bool} {s : List Char} (h : ∀ c ∈ s, c ≠ '>') :
    Reads (s ++ ['?', '>']) ⟨b, .instruction closing⟩ ⟨b, .text []⟩ := by
  induction s generalizing closing with
  | nil =>
    have mark : Reader.step ⟨b, .instruction closing⟩ '?' = some ⟨b, .instruction true⟩ := by
      simp [Reader.step]
    exact cons mark (one rfl)
  | cons c rest ih =>
    obtain ⟨hc, hrest⟩ := List.forall_mem_cons.1 h
    have first : Reader.step ⟨b, .instruction closing⟩ c = some ⟨b, .instruction (c == '?')⟩ := by
      simp [Reader.step, hc]
    exact cons first (ih hrest)

/-! ## Comments -/

/-- The inside of a comment. Each dash in it has another character behind it. -/
theorem commentText : ∀ {s : List Char} (seen : List Char), ¬['-', '-'] <:+: s →
    s.getLast? ≠ some '-' → Reads s ⟨b, .comment seen⟩ ⟨b, .comment (seen ++ s)⟩
  | [], seen, _, _ => by simpa using nil
  | [c], seen, _, last => by
    have other : c ≠ '-' := fun heq => last (congrArg some heq)
    exact one (by simp [Reader.step, other])
  | c :: d :: rest, seen, apart, last => by
    by_cases dash : c = '-'
    · -- a dash is kept together with the character behind it, so the reader is inside again
      have other : d ≠ '-' := by
        rintro rfl
        exact apart (dash ▸ (List.prefix_append ['-', '-'] rest).isInfix)
      have behind : rest.getLast? ≠ some '-' := by
        cases rest with
        | nil => exact nofun
        | cons e rest => simpa using last
      have others := commentText (seen ++ [c, d])
        (fun h => apart (h.trans (List.suffix_append [c, d] rest).isInfix)) behind
      rw [List.append_assoc] at others
      have first : Reader.step ⟨b, .comment seen⟩ c = some ⟨b, .commentDash seen⟩ := by
        simp [Reader.step, dash]
      exact cons first (cons (by simp [Reader.step, dash, other]) others)
    · have others := commentText (seen ++ [c])
        (fun h => apart (h.trans (List.suffix_cons c (d :: rest)).isInfix)) (by simpa using last)
      rw [List.append_assoc] at others
      exact cons (by simp [Reader.step, dash]) others

/-- A comment behind its bracket. -/
theorem comment {s : String} (apart : ¬['-', '-'] <:+: s.toList)
    (last : s.toList.getLast? ≠ some '-') :
    Reads ("!--" ++ s ++ "-->").toList ⟨b, .markup⟩ ⟨b.addNode (.comment s), .text []⟩ := by
  have opened : Reads ['!', '-', '-'] ⟨b, .markup⟩ ⟨b, .comment []⟩ :=
    cons rfl (cons rfl (one rfl))
  have closed : Reads ['-', '-', '>'] ⟨b, .comment s.toList⟩
      ⟨b.addNode (.comment s), .text []⟩ := by
    have closing : Reader.step ⟨b, .commentEnd s.toList⟩ '>'
        = some ⟨b.addNode (.comment s), .text []⟩ := by
      simp [Reader.step]
    exact cons rfl (cons rfl (one closing))
  simp only [String.toList_append]
  exact (opened.append (commentText [] apart last)).append closed

end Reads

/-! ## Nodes -/

/-- The nodes that can be read back: names are names, a comment has no two dashes in it and none at
its end, and no element has both a text and children. -/
inductive Readable : Xml → Prop
  | comment {s : String} (apart : ¬['-', '-'] <:+: s.toList)
      (last : s.toList.getLast? ≠ some '-') : Readable (.comment s)
  | element {name : String} {attributes : List (String × String)} {text : Option String}
      {children : List Xml} (named : isName name = true)
      (keys : ∀ a ∈ attributes, isName a.1 = true) (plain : text = none ∨ children = [])
      (below : ∀ x ∈ children, Readable x) : Readable (.element name attributes text children)

/-- What was built, with more text and more nodes. -/
def Builder.grow (b : Builder) (text : List Char) (xs : List Xml) : Builder :=
  { b with content := { text := b.content.text ++ text, nodes := b.content.nodes ++ xs } }

namespace Builder

variable {b : Builder} {text text' : List Char} {xs ys : List Xml} {t : StartTag}

theorem grow_nil : b.grow [] [] = b := by
  simp [grow]

theorem grow_grow : (b.grow text xs).grow text' ys = b.grow (text ++ text') (xs ++ ys) := by
  simp [grow]

theorem addText_grow : (b.grow text xs).addText text' = b.grow (text ++ text') xs := by
  simp [grow, addText]

/-- An element without child nodes has its text. -/
theorem closeTag?_text (b : Builder) (s : String) :
    ((b.openTag t).addText s.toList).closeTag? t.name
      = some (b.addNode (.element t.name t.attributes (some s) [])) := by
  simp [closeTag?, openTag, addText, Content.close?]

/-- An element with child nodes has them, and the white space between them goes. -/
theorem closeTag?_nodes (h : xs ≠ []) (spaces : ∀ c ∈ text, isSpace c = true) :
    ((b.openTag t).grow text xs).closeTag? t.name
      = some (b.addNode (.element t.name t.attributes none xs)) := by
  simp [closeTag?, openTag, grow, Content.close?, h, List.all_eq_true.2 spaces]

end Builder

theorem isSpace_of_mem_lineBreak {style : Indentation} {depth : Nat} {c : Char}
    (h : c ∈ (style.lineBreak depth).toList) : isSpace c = true := by
  have repeated {s : String} (hs : ∀ c ∈ s.toList, isSpace c = true)
      (h : c ∈ ("\n" ++ Text.times depth s).toList) : isSpace c = true := by
    rw [String.toList_append, Text.times, String.toList_join] at h
    rcases List.mem_append.1 h with first | others
    · obtain rfl := List.mem_singleton.1 first
      rfl
    · obtain ⟨s', hs', hc⟩ := List.mem_flatMap.1 others
      rw [List.eq_of_mem_replicate hs'] at hc
      exact hs c hc
  cases style with
  | tab => exact repeated (List.all_eq_true.1 (by decide)) h
  | twoSpaces => exact repeated (List.all_eq_true.1 (by decide)) h
  | none => cases h

/-! ## The parts of an element -/

section Parts

variable {b b' : Builder} {style : Indentation} {depth : Nat} {name : String}
  {attributes : List (String × String)} {xs : List Xml}

/-- The white space before a tag. -/
theorem reads_lineBreak :
    Reads (style.lineBreak depth).toList ⟨b, .text []⟩
      ⟨b, .text (style.lineBreak depth).toList⟩ := by
  refine Reads.text ?_ []
  rintro c hc rfl
  cases isSpace_of_mem_lineBreak hc

theorem unescape?_lineBreak :
    unescape? (style.lineBreak depth).toList = some (style.lineBreak depth).toList :=
  unescape?_of_spaces fun _ => isSpace_of_mem_lineBreak

/-- The white space before a tag, and its bracket. -/
theorem reads_bracket : Reads (style.lineBreak depth ++ "<").toList ⟨b, .text []⟩
    ⟨b.addText (style.lineBreak depth).toList, .markup⟩ := by
  rw [String.toList_append]
  exact reads_lineBreak.append (.bracket unescape?_lineBreak)

theorem reads_single (named : isName name = true) (keys : ∀ a ∈ attributes, isName a.1 = true) :
    Reads (style.lineBreak depth ++ "<" ++ name ++ printAttributes attributes ++ "/>").toList
      ⟨b, .text []⟩
      ⟨b.grow (style.lineBreak depth).toList [.element name attributes none []], .text []⟩ := by
  let before := b.addText (style.lineBreak depth).toList
  have slash : Reads (name.toList ++ (printAttributes attributes).toList ++ ['/']) ⟨before, .markup⟩
      ⟨before, .single { name, attributes }⟩ := .startTag named keys (by decide) rfl
  have close : Reads ['>'] ⟨before, .single { name, attributes }⟩
      ⟨before.addNode (.element name attributes none []), .text []⟩ := .one rfl
  have whole := reads_bracket.append (slash.append close)
  simp only [String.toList_append, List.append_assoc] at whole ⊢
  exact whole

theorem reads_open (named : isName name = true) (keys : ∀ a ∈ attributes, isName a.1 = true) :
    Reads (style.lineBreak depth ++ "<" ++ name ++ printAttributes attributes ++ ">").toList
      ⟨b, .text []⟩
      ⟨(b.addText (style.lineBreak depth).toList).openTag { name, attributes }, .text []⟩ := by
  let before := b.addText (style.lineBreak depth).toList
  have tag : Reads (name.toList ++ (printAttributes attributes).toList ++ ['>']) ⟨before, .markup⟩
      ⟨before.openTag { name, attributes }, .text []⟩ := .startTag named keys (by decide) rfl
  have whole := reads_bracket.append tag
  simp only [String.toList_append, List.append_assoc] at whole ⊢
  exact whole

theorem reads_close {run text : List Char} (named : isName name = true)
    (plain : unescape? run = some text) (close : (b.addText text).closeTag? name = some b') :
    Reads ("</" ++ name ++ ">").toList ⟨b, .text run⟩ ⟨b', .text []⟩ := by
  have whole := (Reads.bracket plain).append (.endTag named close)
  simp only [String.toList_append] at whole ⊢
  exact whole

/-! ## Nodes as they are printed -/

theorem print_single : print style depth false (.element name attributes none [])
    = style.lineBreak depth ++ "<" ++ name ++ printAttributes attributes ++ "/>" := by
  simp [print]

theorem print_text (s : String) : print style depth false (.element name attributes (some s) [])
    = style.lineBreak depth ++ "<" ++ name ++ printAttributes attributes ++ ">" ++ escape s
      ++ ("</" ++ name ++ ">") := by
  simp [print, printAll, String.append_assoc]

theorem print_nodes (h : xs ≠ []) : print style depth false (.element name attributes none xs)
    = style.lineBreak depth ++ "<" ++ name ++ printAttributes attributes ++ ">"
      ++ printAll style (depth + 1) false xs ++ style.lineBreak depth ++ ("</" ++ name ++ ">") := by
  simp [print, h, String.append_assoc]

theorem reads_comment {s : String} (apart : ¬['-', '-'] <:+: s.toList)
    (last : s.toList.getLast? ≠ some '-') :
    Reads (print style depth false (.comment s)).toList ⟨b, .text []⟩
      ⟨b.grow (style.lineBreak depth).toList [.comment s], .text []⟩ := by
  have bracket : Reads (style.lineBreak depth ++ "<").toList ⟨b, .text []⟩
      ⟨b.addText (style.lineBreak depth).toList, .markup⟩ := reads_bracket
  have whole := bracket.append (.comment apart last)
  simp only [print, String.toList_append, List.append_assoc] at whole ⊢
  exact whole

theorem reads_text (named : isName name = true) (keys : ∀ a ∈ attributes, isName a.1 = true)
    (s : String) : Reads (print style depth false (.element name attributes (some s) [])).toList
      ⟨b, .text []⟩
      ⟨b.grow (style.lineBreak depth).toList [.element name attributes (some s) []], .text []⟩ := by
  let before := b.addText (style.lineBreak depth).toList
  have inside := Reads.text (b := before.openTag { name, attributes })
    (fun c (hc : c ∈ (escape s).toList) => (ne_of_mem_escape hc).1) []
  rw [List.nil_append] at inside
  have close := before.closeTag?_text (t := { name, attributes }) s
  rw [print_text, String.toList_append, String.toList_append]
  exact ((reads_open named keys).append inside).append
    (reads_close named (unescape?_escape s) close)

theorem reads_nodes (named : isName name = true) (keys : ∀ a ∈ attributes, isName a.1 = true)
    (some_node : xs ≠ []) {spaces : List Char} (hspaces : ∀ c ∈ spaces, isSpace c = true)
    (inside : Reads (printAll style (depth + 1) false xs).toList
      ⟨(b.addText (style.lineBreak depth).toList).openTag { name, attributes }, .text []⟩
      ⟨((b.addText (style.lineBreak depth).toList).openTag { name, attributes }).grow spaces xs,
        .text []⟩) :
    Reads (print style depth false (.element name attributes none xs)).toList ⟨b, .text []⟩
      ⟨b.grow (style.lineBreak depth).toList [.element name attributes none xs], .text []⟩ := by
  have allSpaces : ∀ c ∈ spaces ++ (style.lineBreak depth).toList, isSpace c = true :=
    List.forall_mem_append.2 ⟨hspaces, fun c => isSpace_of_mem_lineBreak⟩
  have close := Builder.closeTag?_nodes (b := b.addText (style.lineBreak depth).toList)
    (t := { name, attributes }) some_node allSpaces
  rw [← Builder.addText_grow] at close
  rw [print_nodes some_node, String.toList_append, String.toList_append, String.toList_append]
  exact (((reads_open named keys).append inside).append reads_lineBreak).append
    (reads_close named unescape?_lineBreak close)

end Parts

mutual

/-- **A node is read back**, with the white space before it. -/
theorem reads_print (style : Indentation) (depth : Nat) (b : Builder) {x : Xml}
    (h : x.Readable) : Reads (print style depth false x).toList ⟨b, .text []⟩
      ⟨b.grow (style.lineBreak depth).toList [x], .text []⟩ := by
  cases x with
  | comment s =>
    cases h with
    | comment apart last => exact reads_comment apart last
  | element name attributes text children =>
    cases h with
    | element named keys plain below =>
      cases text with
      | some s =>
        obtain rfl : children = [] := plain.resolve_left nofun
        exact reads_text named keys s
      | none =>
        by_cases single : children = []
        · -- only with neither text nor children there is no end tag
          subst single
          rw [print_single]
          exact reads_single named keys
        · obtain ⟨spaces, hspaces, inside⟩ := reads_printAll style (depth + 1) _ below
          exact reads_nodes named keys single hspaces inside

/-- Siblings are read back, with white space between them. -/
theorem reads_printAll (style : Indentation) (depth : Nat) (b : Builder) {xs : List Xml}
    (h : ∀ x ∈ xs, x.Readable) : ∃ spaces, (∀ c ∈ spaces, isSpace c = true) ∧
      Reads (printAll style depth false xs).toList ⟨b, .text []⟩ ⟨b.grow spaces xs, .text []⟩ := by
  cases xs with
  | nil => exact ⟨[], List.forall_mem_nil _, by rw [Builder.grow_nil]; exact .nil⟩
  | cons x xs =>
    obtain ⟨hx, hxs⟩ := List.forall_mem_cons.1 h
    have first := reads_print style depth b hx
    obtain ⟨spaces, hspaces, others⟩ := reads_printAll style depth
      (b.grow (style.lineBreak depth).toList [x]) hxs
    rw [Builder.grow_grow] at others
    have blank : ∀ c ∈ (style.lineBreak depth).toList ++ spaces, isSpace c = true :=
      List.forall_mem_append.2 ⟨fun c => isSpace_of_mem_lineBreak, hspaces⟩
    refine ⟨_, blank, ?_⟩
    rw [printAll, String.toList_append]
    exact first.append others

end

/-- A document whose nodes were read ends with white space at most. -/
theorem Reads.finish {s : String} {spaces run : List Char} {xs : List Xml}
    (h : Reads s.toList .start ⟨Builder.empty.grow spaces xs, .text run⟩)
    (hspaces : ∀ c ∈ spaces, isSpace c = true) (hrun : ∀ c ∈ run, isSpace c = true) :
    read s = some xs := by
  have blank : ∀ c ∈ spaces ++ run, isSpace c = true := List.forall_mem_append.2 ⟨hspaces, hrun⟩
  have last : Reader.finish? ⟨Builder.empty.grow spaces xs, .text run⟩ = some xs := by
    unfold Reader.finish?
    dsimp only
    rw [unescape?_of_spaces hrun, Option.bind_some, Builder.addText_grow]
    exact if_pos (List.all_eq_true.2 blank)
  unfold read
  rw [h, Option.bind_some, last]

theorem reads_declaration : Reads "<?xml version=\"1.0\"?>".toList .start .start := by
  have parts : "<?xml version=\"1.0\"?>".toList
      = ['<'] ++ ['?'] ++ ("xml version=\"1.0\"".toList ++ ['?', '>']) := by decide
  have bracket : Reads ['<'] .start ⟨.empty, .markup⟩ := .one rfl
  have mark : Reads ['?'] ⟨.empty, .markup⟩ ⟨.empty, .instruction false⟩ := .one rfl
  rw [parts]
  exact (bracket.append mark).append (.instruction (by simp))

/-- The white space at the end of a document. -/
def lastBreak : Indentation → String
  | .none => ""
  | .tab | .twoSpaces => "\n"

/-- **A document is read back.** -/
theorem read_document (style : Indentation) {xs : List Xml} (h : ∀ x ∈ xs, x.Readable) :
    read (document style xs) = some xs := by
  obtain ⟨spaces, hspaces, nodes⟩ := reads_printAll style 0 .empty h
  have blank : ∀ c ∈ (lastBreak style).toList, isSpace c = true := by
    cases style <;> exact List.all_eq_true.1 (by decide)
  have away : ∀ c ∈ (lastBreak style).toList, c ≠ '<' := by
    rintro c hc rfl
    cases blank _ hc
  have parts : document style xs
      = "<?xml version=\"1.0\"?>" ++ printAll style 0 false xs ++ lastBreak style := by
    cases style <;> rfl
  have whole : Reads (document style xs).toList .start
      ⟨Builder.empty.grow spaces xs, .text (lastBreak style).toList⟩ := by
    rw [parts, String.toList_append, String.toList_append]
    exact (reads_declaration.append nodes).append (.text away [])
  exact whole.finish hspaces blank

end Xml

end FormDesign
