/-
The part of HTML that is tags with attributes and text with character references.

* `tokens` — what a browser reads off a page, character by character;
* `tokens_write` — reading what was written gives the tokens back, whatever the text and the
  values of the attributes are.
-/
import Mathlib.Data.List.Basic

namespace Html

inductive Token
  | char (c : Char)
  | startTag (name : List Char) (attributes : List (List Char × List Char))
  | endTag (name : List Char)
  deriving DecidableEq

/-! ### Reading -/

/-- The character that `&name;` stands for. -/
def reference (name : List Char) : Option Char :=
  if name = ['a', 'm', 'p'] then some '&'
  else if name = ['l', 't'] then some '<'
  else if name = ['g', 't'] then some '>'
  else if name = ['q', 'u', 'o', 't'] then some '"'
  else none

/-- What `&name;` stands for; an unknown name stands for itself. -/
def resolve (name : List Char) : List Char :=
  match reference name with
  | some c => [c]
  | none => '&' :: name ++ [';']

/-- The state of the reader: in the text, or within a tag with this name, these attributes so far,
and this attribute and value in progress. -/
inductive Mode
  | data
  | dataRef (ref : List Char)
  | tagOpen
  | tagName (name : List Char)
  | endTagName (name : List Char)
  | beforeAttribute (name : List Char) (attributes : List (List Char × List Char))
  | attrName (name : List Char) (attributes : List (List Char × List Char)) (a : List Char)
  | beforeValue (name : List Char) (attributes : List (List Char × List Char)) (a : List Char)
  | value (name : List Char) (attributes : List (List Char × List Char)) (a v : List Char)
  | valueRef (name : List Char) (attributes : List (List Char × List Char))
      (a v ref : List Char)
  | unquoted (name : List Char) (attributes : List (List Char × List Char)) (a v : List Char)

def isSpace (c : Char) : Bool := c = ' ' || c = '\t' || c = '\n' || c = '\r'

def readData : Char → Mode × List Token
  | '&' => (.dataRef [], [])
  | '<' => (.tagOpen, [])
  | c => (.data, [.char c])

def readValue (name : List Char) (attributes : List (List Char × List Char)) (a v : List Char) :
    Char → Mode
  | '&' => .valueRef name attributes a v []
  | '"' => .beforeAttribute name (attributes ++ [(a, v)])
  | c => .value name attributes a (v ++ [c])

/-- One character, and the tokens that it completes. -/
def read : Mode → Char → Mode × List Token
  | .data, c => readData c
  | .dataRef ref, c =>
    if c = ';' then (.data, (resolve ref).map .char)
    else if c.isAlphanum then (.dataRef (ref ++ [c]), [])
    else ((readData c).1, ('&' :: ref).map .char ++ (readData c).2)
  | .tagOpen, c =>
    if c = '/' then (.endTagName [], [])
    else if c.isAlpha then (.tagName [c], [])
    else ((readData c).1, .char '<' :: (readData c).2)
  | .tagName name, c =>
    if c = '>' then (.data, [.startTag name []])
    else if isSpace c then (.beforeAttribute name [], [])
    else (.tagName (name ++ [c]), [])
  | .endTagName name, c =>
    if c = '>' then (.data, [.endTag name]) else (.endTagName (name ++ [c]), [])
  | .beforeAttribute name attributes, c =>
    if c = '>' then (.data, [.startTag name attributes])
    else if isSpace c then (.beforeAttribute name attributes, [])
    else (.attrName name attributes [c], [])
  | .attrName name attributes a, c =>
    if c = '>' then (.data, [.startTag name (attributes ++ [(a, [])])])
    else if isSpace c then (.beforeAttribute name (attributes ++ [(a, [])]), [])
    else if c = '=' then (.beforeValue name attributes a, [])
    else (.attrName name attributes (a ++ [c]), [])
  | .beforeValue name attributes a, c =>
    if c = '"' then (.value name attributes a [], [])
    else if c = '>' then (.data, [.startTag name (attributes ++ [(a, [])])])
    else if isSpace c then (.beforeValue name attributes a, [])
    else (.unquoted name attributes a [c], [])
  | .value name attributes a v, c => (readValue name attributes a v c, [])
  | .valueRef name attributes a v ref, c =>
    if c = ';' then (.value name attributes a (v ++ resolve ref), [])
    else if c.isAlphanum then (.valueRef name attributes a v (ref ++ [c]), [])
    else (readValue name attributes a (v ++ '&' :: ref) c, [])
  | .unquoted name attributes a v, c =>
    if c = '>' then (.data, [.startTag name (attributes ++ [(a, v)])])
    else if isSpace c then (.beforeAttribute name (attributes ++ [(a, v)]), [])
    else (.unquoted name attributes a (v ++ [c]), [])

/-- A tag that does not end is dropped. -/
def atEnd : Mode → List Token
  | .dataRef ref => ('&' :: ref).map .char
  | .tagOpen => [.char '<']
  | _ => []

/-- The tokens of a page; that a browser first turns `\r` and `\r\n` into `\n`, and what it
makes of NUL characters, are left out. -/
def tokens : Mode → List Char → List Token
  | mode, [] => atEnd mode
  | mode, c :: rest => (read mode c).2 ++ tokens (read mode c).1 rest

/-! ### Writing -/

def escapeChar : Char → List Char
  | '&' => ['&', 'a', 'm', 'p', ';']
  | '<' => ['&', 'l', 't', ';']
  | '>' => ['&', 'g', 't', ';']
  | '"' => ['&', 'q', 'u', 'o', 't', ';']
  | c => [c]

def writeAttribute (attr : List Char × List Char) : List Char :=
  ' ' :: attr.1 ++
    if attr.2 = [] then [] else ['=', '"'] ++ attr.2.flatMap escapeChar ++ ['"']

def write : Token → List Char
  | .char c => escapeChar c
  | .startTag name attributes => '<' :: name ++ attributes.flatMap writeAttribute ++ ['>']
  | .endTag name => ['<', '/'] ++ name ++ ['>']

/-- A name that reads as one. -/
def IsName (name : List Char) : Prop :=
  name.head?.any Char.isAlpha = true ∧
    name.all (fun c => !(c == '>' || c == '=' || isSpace c)) = true

instance : DecidablePred IsName := fun _ => inferInstanceAs (Decidable (_ ∧ _))

/-- The names in the token are names. -/
def Token.WellFormed : Token → Prop
  | .char _ => True
  | .startTag name attributes => IsName name ∧ ∀ attr ∈ attributes, IsName attr.1
  | .endTag name => IsName name

instance : DecidablePred Token.WellFormed
  | .char _ => inferInstanceAs (Decidable True)
  | .startTag name attributes =>
    inferInstanceAs (Decidable (IsName name ∧ ∀ attr ∈ attributes, IsName attr.1))
  | .endTag name => inferInstanceAs (Decidable (IsName name))

variable {name a : List Char} {attributes : List (List Char × List Char)}

/-- The characters that `escapeChar` leaves alone. -/
theorem escapeChar_cases (c : Char) :
    (c = '&' ∧ escapeChar c = ['&', 'a', 'm', 'p', ';']) ∨
    (c = '<' ∧ escapeChar c = ['&', 'l', 't', ';']) ∨
    (c = '>' ∧ escapeChar c = ['&', 'g', 't', ';']) ∨
    (c = '"' ∧ escapeChar c = ['&', 'q', 'u', 'o', 't', ';']) ∨
    ((c ≠ '&' ∧ c ≠ '<' ∧ c ≠ '>' ∧ c ≠ '"') ∧ escapeChar c = [c]) := by
  unfold escapeChar
  split
  · exact .inl ⟨rfl, rfl⟩
  · exact .inr (.inl ⟨rfl, rfl⟩)
  · exact .inr (.inr (.inl ⟨rfl, rfl⟩))
  · exact .inr (.inr (.inr (.inl ⟨rfl, rfl⟩)))
  · rename_i hamp hlt hgt hquot
    exact .inr (.inr (.inr (.inr ⟨⟨hamp, hlt, hgt, hquot⟩, rfl⟩)))

/-! ### Reading what was written -/

theorem tokens_char (c : Char) (rest : List Char) :
    tokens .data (escapeChar c ++ rest) = .char c :: tokens .data rest := by
  rcases escapeChar_cases c with ⟨rfl, h⟩ | ⟨rfl, h⟩ | ⟨rfl, h⟩ | ⟨rfl, h⟩ | ⟨hplain, h⟩
  · rfl
  · rfl
  · rfl
  · rfl
  · have hdata : readData c = (.data, [.char c]) := by
      unfold readData
      split
      · exact absurd rfl hplain.1
      · exact absurd rfl hplain.2.1
      · rfl
    rw [h, List.singleton_append, tokens, read, hdata, List.singleton_append]

theorem tokens_value (v w : List Char) (rest : List Char) :
    tokens (.value name attributes a v) (w.flatMap escapeChar ++ '"' :: rest)
      = tokens (.beforeAttribute name (attributes ++ [(a, v ++ w)])) rest := by
  induction w generalizing v with
  | nil =>
    rw [List.flatMap_nil, List.nil_append, List.append_nil, tokens]
    rfl
  | cons c w ih =>
    -- one character of the value is read back
    have hchar : ∀ rest, tokens (.value name attributes a v) (escapeChar c ++ rest)
        = tokens (.value name attributes a (v ++ [c])) rest := by
      intro rest
      rcases escapeChar_cases c with ⟨rfl, h⟩ | ⟨rfl, h⟩ | ⟨rfl, h⟩ | ⟨rfl, h⟩ | ⟨hplain, h⟩
      · rfl
      · rfl
      · rfl
      · rfl
      · have hvalue : readValue name attributes a v c = .value name attributes a (v ++ [c]) := by
          unfold readValue
          split
          · exact absurd rfl hplain.1
          · exact absurd rfl hplain.2.2.2
          · rfl
        rw [h, List.singleton_append, tokens, read, hvalue, List.nil_append]
    rw [List.flatMap_cons, List.append_assoc, hchar, ih, List.append_assoc, List.singleton_append]

theorem tokens_tagName (hname : ∀ c ∈ a, c ≠ '>' ∧ c ≠ '=' ∧ isSpace c = false)
    (rest : List Char) :
    tokens (.tagName name) (a ++ rest) = tokens (.tagName (name ++ a)) rest := by
  induction a generalizing name with
  | nil => rw [List.nil_append, List.append_nil]
  | cons c a ih =>
    obtain ⟨⟨hend, -, hspace⟩, hrest⟩ := List.forall_mem_cons.mp hname
    rw [List.cons_append, tokens, read, if_neg hend, if_neg (by rw [hspace]; decide),
      List.nil_append, ih hrest, List.append_assoc, List.singleton_append]

theorem tokens_endTagName (hname : ∀ c ∈ a, c ≠ '>' ∧ c ≠ '=' ∧ isSpace c = false)
    (rest : List Char) :
    tokens (.endTagName name) (a ++ rest) = tokens (.endTagName (name ++ a)) rest := by
  induction a generalizing name with
  | nil => rw [List.nil_append, List.append_nil]
  | cons c a ih =>
    obtain ⟨⟨hend, -⟩, hrest⟩ := List.forall_mem_cons.mp hname
    rw [List.cons_append, tokens, read, if_neg hend, List.nil_append, ih hrest,
      List.append_assoc, List.singleton_append]

theorem tokens_attribute {b : List Char} (hname : ∀ c ∈ b, c ≠ '>' ∧ c ≠ '=' ∧ isSpace c = false)
    (rest : List Char) :
    tokens (.attrName name attributes a) (b ++ rest)
      = tokens (.attrName name attributes (a ++ b)) rest := by
  induction b generalizing a with
  | nil => rw [List.nil_append, List.append_nil]
  | cons c b ih =>
    obtain ⟨⟨hend, heq, hspace⟩, hrest⟩ := List.forall_mem_cons.mp hname
    rw [List.cons_append, tokens, read, if_neg hend, if_neg (by rw [hspace]; decide),
      if_neg heq, List.nil_append, ih hrest, List.append_assoc, List.singleton_append]

/-- The reader has the tag's name and these attributes, and expects another one or the end. -/
def Between (mode : Mode) (name : List Char) (attributes : List (List Char × List Char)) : Prop :=
  read mode '>' = (.data, [.startTag name attributes]) ∧
    read mode ' ' = (.beforeAttribute name attributes, [])

theorem ne_of_mem_of_isName (h : IsName name) :
    ∀ c ∈ name, c ≠ '>' ∧ c ≠ '=' ∧ isSpace c = false := by
  intro c hc
  simpa [and_assoc] using List.all_eq_true.mp h.2 c hc

theorem exists_cons_of_isName (h : IsName name) :
    ∃ c rest, name = c :: rest ∧ c.isAlpha = true ∧ isSpace c = false ∧ c ≠ '>' ∧
      ∀ d ∈ rest, d ≠ '>' ∧ d ≠ '=' ∧ isSpace d = false := by
  have hall := ne_of_mem_of_isName h
  cases name with
  | nil => exact absurd h.1 (by decide)
  | cons c rest =>
    obtain ⟨⟨hend, -, hspace⟩, hrest⟩ := List.forall_mem_cons.mp hall
    exact ⟨c, rest, rfl, h.1, hspace, hend, hrest⟩

/-- One attribute, up to the next one or the end of the tag. -/
theorem tokens_writeAttribute {mode : Mode} (hmode : Between mode name attributes)
    {attr : List Char × List Char} (hname : IsName attr.1) :
    ∃ mode', Between mode' name (attributes ++ [attr]) ∧
      ∀ rest, tokens mode (writeAttribute attr ++ rest) = tokens mode' rest := by
  obtain ⟨b, v⟩ := attr
  obtain ⟨c, b', rfl, halpha, hspace, hend, hb'⟩ := exists_cons_of_isName hname
  have hopen : ∀ rest, tokens mode (' ' :: (c :: b') ++ rest)
      = tokens (.attrName name attributes (c :: b')) rest := by
    intro rest
    rw [List.cons_append, tokens, hmode.2, List.nil_append, List.cons_append, tokens, read,
      if_neg hend, if_neg (by rw [hspace]; decide), List.nil_append, tokens_attribute hb',
      List.singleton_append]
  by_cases hv : v = []
  · subst hv
    refine ⟨.attrName name attributes (c :: b'), ⟨rfl, rfl⟩, fun rest => ?_⟩
    rw [writeAttribute, if_pos rfl, List.append_nil, hopen]
  · refine ⟨.beforeAttribute name (attributes ++ [(c :: b', v)]), ⟨rfl, rfl⟩, fun rest => ?_⟩
    have hvalue : tokens (.value name attributes (c :: b') []) (v.flatMap escapeChar ++ '"' :: rest)
        = tokens (.beforeAttribute name (attributes ++ [(c :: b', v)])) rest :=
      tokens_value [] v rest
    rw [writeAttribute, if_neg hv, List.append_assoc, hopen, ← hvalue]
    simp only [List.append_assoc, List.cons_append, List.nil_append]
    rfl

theorem tokens_writeAttributes (later : List (List Char × List Char))
    (hnames : ∀ attr ∈ later, IsName attr.1) (rest : List Char) :
    ∀ {mode : Mode} {attributes : List (List Char × List Char)}, Between mode name attributes →
      tokens mode (later.flatMap writeAttribute ++ '>' :: rest)
        = .startTag name (attributes ++ later) :: tokens .data rest := by
  induction later with
  | nil =>
    intro mode attributes hmode
    rw [List.flatMap_nil, List.nil_append, List.append_nil, tokens, hmode.1,
      List.singleton_append]
  | cons attr later ih =>
    intro mode attributes hmode
    obtain ⟨hname, hlater⟩ := List.forall_mem_cons.mp hnames
    obtain ⟨mode', hmode', hread⟩ := tokens_writeAttribute hmode hname
    rw [List.flatMap_cons, List.append_assoc, hread, ih hlater hmode', List.append_assoc,
      List.singleton_append]

theorem tokens_write_append {t : Token} (h : t.WellFormed) (rest : List Char) :
    tokens .data (write t ++ rest) = t :: tokens .data rest := by
  cases t with
  | char c => exact tokens_char c rest
  | startTag name attributes =>
    obtain ⟨hname, hattributes⟩ := h
    obtain ⟨c, name, rfl, halpha, -, -, hrest⟩ := exists_cons_of_isName hname
    have hslash : c ≠ '/' := by
      rintro rfl
      exact absurd halpha (by decide)
    have hopen : ∀ rest, tokens .data ('<' :: (c :: name) ++ rest)
        = tokens (.tagName (c :: name)) rest := by
      intro rest
      show tokens .tagOpen (c :: (name ++ rest)) = _
      rw [tokens, read, if_neg hslash, if_pos halpha, List.nil_append, tokens_tagName hrest,
        List.singleton_append]
    rw [write, List.append_assoc, List.append_assoc, hopen, List.singleton_append,
      tokens_writeAttributes attributes hattributes rest ⟨rfl, rfl⟩, List.nil_append]
  | endTag name =>
    have hopen : ∀ rest, tokens .data (['<', '/'] ++ rest) = tokens (.endTagName []) rest :=
      fun _ => rfl
    rw [write, List.append_assoc, List.append_assoc, hopen, tokens_endTagName (ne_of_mem_of_isName h),
      List.singleton_append, tokens]
    rfl

/-- **Reading what was written.** -/
theorem tokens_write {ts : List Token} (h : ∀ t ∈ ts, t.WellFormed) :
    tokens .data (ts.flatMap write) = ts := by
  induction ts with
  | nil => rfl
  | cons t ts ih =>
    obtain ⟨ht, hts⟩ := List.forall_mem_cons.mp h
    rw [List.flatMap_cons, tokens_write_append ht, ih hts]

end Html
