import StateMachines.Source.Lexer

/-!
# How tokens are written

`Lexeme` says which texts stand for which tokens, whatever the reader of texts does with them:
blanks and comments for none, documentation for an attribute, words, marks, delimiters and literals
each for one token. Where a text ends depends on what follows it, so that is part of the relation.

## Main definitions

* `CommentTail`: block comments, which nest.
* `Quoted`, `RawQuoted`: what stands between the quotes of a string literal.
* `StringText`, `CharText`: literals between quotes, of each flavour.
* `IntegerText`, `FloatText`: number literals.
* `Lexeme`: the text of a token or of something between two tokens.
* `Written`: the texts of a sequence of tokens.
* `TextOf`: the texts of trees.
-/

namespace StateMachines.Source

open Text (isBlank isIdentStart isIdentContinue isDigit hexDigit?)

/-! ## Comments -/

/-- What stands behind the opening mark of a block comment, up to its closing mark. -/
inductive CommentTail : List Char → Prop where
  | close : CommentTail ['*', '/']
  /-- Another comment inside. -/
  | nest {inner outer : List Char} (hinner : CommentTail inner) (houter : CommentTail outer) :
      CommentTail ('/' :: '*' :: (inner ++ outer))
  | char {c : Char} {rest : List Char} (hopen : ¬ (c = '/' ∧ rest.head? = some '*'))
      (hclose : ¬ (c = '*' ∧ rest.head? = some '/')) (hrest : CommentTail rest) :
      CommentTail (c :: rest)

/-- The text has no line end. -/
def OneLine (text : List Char) : Prop := '\n' ∉ text

/-- A line ends here. -/
def LineEnds (rest : List Char) : Prop := rest = [] ∨ rest.head? = some '\n'

/-- Every carriage return is followed by a line feed. -/
def ReturnsPaired (text : List Char) : Prop :=
  ∀ before after, text = before ++ '\r' :: after → after.head? = some '\n'

/-- The rest of a line comment makes it documentation, or documentation of what is around it. -/
def IsDocLine (text : List Char) : Prop :=
  text.head? = some '!' ∨ (text.head? = some '/' ∧ text[1]? ≠ some '/')

/-- The rest of a block comment makes it documentation, or documentation of what is around it. -/
def IsDocBlock (tail : List Char) : Prop :=
  tail.head? = some '!' ∨ (tail.head? = some '*' ∧ tail[1]? ≠ some '*' ∧ tail[1]? ≠ some '/')

/-! ## Words and marks -/

/-- A name is not followed at once by what goes on with it or makes it the beginning of a literal or
of a raw name. -/
def WordEnds (name rest : List Char) : Prop :=
  (∀ c ∈ rest.head?, isIdentContinue c = false) ∧
    ∀ opening ∈ ['r', '#'] :: literalOpenings, ¬ opening <+: name ++ rest

/-- A punctuation character that does not begin a comment. -/
def IsMark (c : Char) (rest : List Char) : Prop :=
  c ∈ punctuation ∧ ¬ (c = '/' ∧ (rest.head? = some '/' ∨ rest.head? = some '*'))

/-- A punctuation character comes next. -/
def Touches (rest : List Char) : Prop := ∃ c after, rest = c :: after ∧ IsMark c after

/-! ## Literals -/

/-- The characters that stand for others behind a backslash. -/
def escapes : List (Char × Char) :=
  [('n', '\n'), ('r', '\r'), ('t', '\t'), ('\x5c', '\x5c'), ('\x27', '\x27'), ('\x22', '\x22'),
    ('0', '\x00')]

/-- The number that hexadecimal digits stand for. Underscores among them do not count. -/
def hexNumber (digits : List Char) : Nat :=
  (digits.filterMap hexDigit?).foldl (fun value digit => 16 * value + digit) 0

/-- One to six hexadecimal digits, and underscores behind the first one, for a character. -/
structure CodePoint (digits : List Char) : Prop where
  first : ∃ c rest, digits = c :: rest ∧ c ≠ '_'
  chars : ∀ c ∈ digits, c = '_' ∨ (hexDigit? c).isSome
  length_le : (digits.filterMap hexDigit?).length ≤ 6
  valid : (hexNumber digits).isValidChar

/-- A line end. -/
inductive LineEnd : List Char → Prop where
  | feed : LineEnd ['\n']
  | returnFeed : LineEnd ['\r', '\n']

/-- Spaces, tabs and line ends. -/
inductive Indent : List Char → Prop where
  | nil : Indent []
  | space {c : Char} {rest : List Char} (hc : c = ' ' ∨ c = '\t') (hrest : Indent rest) :
      Indent (c :: rest)
  | line {end_ rest : List Char} (hend : LineEnd end_) (hrest : Indent rest) :
      Indent (end_ ++ rest)

/-- The numbers that two hexadecimal digits may stand for: an ASCII character in a text, a byte
elsewhere. -/
def Flavour.AdmitsCode : Flavour → Nat → Prop
  | .text, code => code < 128
  | .bytes, _ => True
  | .cText, code => code ≠ 0

/-- A character, and what stands for it behind a backslash. -/
inductive Escape (flavour : Flavour) : Char → List Char → Prop where
  | mark {mark c : Char} (hmark : (mark, c) ∈ escapes) (hzero : flavour = .cText → c ≠ '\x00') :
      Escape flavour c [mark]
  | code {c d : Char} {first second : Nat} (hfirst : hexDigit? c = some first)
      (hsecond : hexDigit? d = some second) (hcode : flavour.AdmitsCode (16 * first + second)) :
      Escape flavour (Char.ofNat (16 * first + second)) ['x', c, d]
  | point {digits : List Char} (hdigits : CodePoint digits) (hflavour : flavour ≠ .bytes)
      (hzero : flavour = .cText → hexNumber digits ≠ 0) :
      Escape flavour (Char.ofNat (hexNumber digits)) ('u' :: '\x7b' :: (digits ++ ['\x7d']))

/-- A value, and what stands for it behind the opening quote of an ordinary string literal, up to
the closing one. -/
inductive Quoted (flavour : Flavour) : List Char → List Char → Prop where
  | close : Quoted flavour [] ['\x22']
  | char {c : Char} {value tail : List Char} (hc : c ≠ '\x22' ∧ c ≠ '\x5c' ∧ c ≠ '\r')
      (hadmits : flavour.admits c = true) (hrest : Quoted flavour value tail) :
      Quoted flavour (c :: value) (c :: tail)
  /-- A carriage return in front of a line feed does not count. -/
  | line {value tail : List Char} (hrest : Quoted flavour value tail) :
      Quoted flavour ('\n' :: value) ('\r' :: '\n' :: tail)
  | escape {c : Char} {spelling value tail : List Char} (hescape : Escape flavour c spelling)
      (hrest : Quoted flavour value tail) :
      Quoted flavour (c :: value) ('\x5c' :: (spelling ++ tail))
  /-- A backslash at the end of a line joins it to the next one that is not blank. -/
  | join {end_ indent value tail : List Char} (hend : LineEnd end_) (hindent : Indent indent)
      (htail : ∀ c ∈ tail.head?, c ∉ [' ', '\t', '\n', '\r']) (hrest : Quoted flavour value tail) :
      Quoted flavour value ('\x5c' :: (end_ ++ (indent ++ tail)))

/-- The value of a raw string literal between so many hashes: it contains no quote that is followed
by as many. -/
structure RawQuoted (flavour : Flavour) (hashes : Nat) (value : List Char) : Prop where
  hashes_le : hashes ≤ 255
  open_ : ∀ before after, value = before ++ '\x22' :: after →
    ¬ List.replicate hashes '#' <+: after
  paired : ReturnsPaired value
  admits : ∀ c ∈ value, flavour.admits c = true

/-- A value and a string literal for it, ordinary or raw, without the letter of its flavour. -/
inductive StringText (flavour : Flavour) : List Char → List Char → Prop where
  | ordinary {value tail : List Char} (htail : Quoted flavour value tail) :
      StringText flavour value ('\x22' :: tail)
  | raw {hashes : Nat} {value : List Char} (hvalue : RawQuoted flavour hashes value) :
      StringText flavour value
        ('r' :: (List.replicate hashes '#' ++
          '\x22' :: (value ++ '\x22' :: List.replicate hashes '#')))

/-- A literal between single quotes: one character or escape. -/
inductive CharText (flavour : Flavour) : List Char → Prop where
  | char {c : Char} (hc : c ≠ '\x5c') (hadmits : flavour.admits c = true) :
      CharText flavour ['\x27', c, '\x27']
  | escape {c : Char} {spelling : List Char} (hescape : Escape flavour c spelling) :
      CharText flavour ('\x27' :: '\x5c' :: (spelling ++ ['\x27']))

/-- What is appended to a literal, if anything, is a name. -/
inductive Suffix : List Char → List Char → Prop where
  | none {rest : List Char} (hrest : ∀ c ∈ rest.head?, isIdentStart c = false) : Suffix [] rest
  | name {c : Char} {cs rest : List Char} (hc : isIdentStart c = true)
      (hcs : ∀ d ∈ cs, isIdentContinue d = true)
      (hrest : ∀ d ∈ rest.head?, isIdentContinue d = false) : Suffix (c :: cs) rest

/-! ### Numbers -/

/-- Decimal digits, and underscores among them. -/
def DecimalDigits (cs : List Char) : Prop := ∀ c ∈ cs, isDigit c = true ∨ c = '_'

/-- No further digit follows. -/
def DigitsEnd (tail : List Char) : Prop := ∀ c ∈ tail.head?, isDigit c = false ∧ c ≠ '_'

/-- What stands behind the letter of an exponent: digits, with underscores among them, and at most
one sign in front of them. The flag tells whether there was a sign already. -/
inductive Exponent : Bool → List Char → Prop where
  | sign {c : Char} {text : List Char} (hc : c = '+' ∨ c = '-') (htext : Exponent true text) :
      Exponent false (c :: text)
  | underscore {signed : Bool} {text : List Char} (htext : Exponent signed text) :
      Exponent signed ('_' :: text)
  | digits {signed : Bool} {c : Char} {cs : List Char} (hc : isDigit c = true)
      (hcs : DecimalDigits cs) : Exponent signed (c :: cs)

/-- No exponent follows. -/
def NoExponent (tail : List Char) : Prop :=
  ∀ c text, c = 'e' ∨ c = 'E' → Exponent false text → ¬ c :: text <+: tail

/-- No point follows, or one that does not belong to a number. -/
def NoPoint (tail : List Char) : Prop :=
  ∀ after, tail = '.' :: after → ∃ c ∈ after.head?, c = '.' ∨ isIdentStart c = true

/-- Digits, which may have a fraction. -/
inductive Mantissa : Bool → List Char → Prop where
  | whole {c : Char} {cs : List Char} (hc : isDigit c = true) (hcs : DecimalDigits cs) :
      Mantissa false (c :: cs)
  | fraction {c d : Char} {cs ds : List Char} (hc : isDigit c = true) (hcs : DecimalDigits cs)
      (hd : isDigit d = true) (hds : DecimalDigits ds) : Mantissa true (c :: (cs ++ '.' :: d :: ds))

/-- A float literal without its suffix, in front of a text. -/
inductive FloatText : List Char → List Char → Prop where
  /-- Digits and a point. -/
  | point {c : Char} {cs tail : List Char} (hc : isDigit c = true) (hcs : DecimalDigits cs)
      (htail : ∀ d ∈ tail.head?, d ≠ '.' ∧ isIdentContinue d = false) :
      FloatText (c :: (cs ++ ['.'])) tail
  | fraction {mantissa tail : List Char} (hmantissa : Mantissa true mantissa)
      (hends : DigitsEnd tail) (hexponent : NoExponent tail) : FloatText mantissa tail
  | exponent {fraction : Bool} {mantissa text tail : List Char} {c : Char}
      (hmantissa : Mantissa fraction mantissa) (hc : c = 'e' ∨ c = 'E')
      (htext : Exponent false text) (hends : DigitsEnd tail) :
      FloatText (mantissa ++ c :: text) tail

/-- An integer literal without its suffix, in front of a text. -/
inductive IntegerText : List Char → List Char → Prop where
  | decimal {c : Char} {cs tail : List Char} (hc : isDigit c = true) (hcs : DecimalDigits cs)
      (hends : DigitsEnd tail) (hpoint : NoPoint tail) (hexponent : NoExponent tail)
      (hbase : c = '0' → cs = [] → ∀ d ∈ tail.head?, d ∉ ['x', 'o', 'b']) :
      IntegerText (c :: cs) tail
  /-- With another base, which a letter gives. A letter that is too great for a digit ends the
  literal, but a decimal digit that is too great spoils it. -/
  | based {letter : Char} {base : Nat} {digits tail : List Char}
      (hbase : (letter, base) ∈ [('x', 16), ('o', 8), ('b', 2)])
      (hdigits : ∀ d ∈ digits, d = '_' ∨ ∃ digit, hexDigit? d = some digit ∧ digit < base)
      (hsome : ∃ d ∈ digits, d ≠ '_')
      (hends : ∀ d ∈ tail.head?, d ≠ '_' ∧
        ∀ digit, hexDigit? d = some digit → base ≤ digit ∧ 10 ≤ digit) :
      IntegerText ('0' :: letter :: digits) tail

/-! ## Tokens -/

/-- The characters that stand for delimiters. -/
def Delimiter.chars : Delimiter → Char × Char
  | .paren => ('(', ')')
  | .bracket => ('[', ']')
  | .brace => ('\x7b', '\x7d')

/-- The attribute that a documentation comment stands for. -/
def documentation (text : List Char) : List Token :=
  [.punct '#' false, .opening .bracket, .ident "doc", .punct '=' false,
    .literal (.string (String.ofList text) false) (Text.quote (String.ofList text)),
    .closing .bracket]

/-- The tokens that a text stands for in front of another text. -/
inductive Lexeme : List Token → List Char → List Char → Prop where
  | blank {c : Char} {rest : List Char} (hc : isBlank c = true) : Lexeme [] [c] rest
  | line {text rest : List Char} (htext : OneLine text) (hplain : ¬ IsDocLine text)
      (hrest : LineEnds rest) : Lexeme [] ('/' :: '/' :: text) rest
  | block {tail rest : List Char} (htail : CommentTail tail) (hplain : ¬ IsDocBlock tail) :
      Lexeme [] ('/' :: '*' :: tail) rest
  /-- A line of documentation. It may end with a carriage return. -/
  | docLine {text ending rest : List Char} (htext : OneLine text) (hreturn : '\r' ∉ text)
      (hhead : text.head? ≠ some '/') (hrest : LineEnds rest)
      (hending : ending = [] ∨ (ending = ['\r'] ∧ rest ≠ [])) :
      Lexeme (documentation text) ('/' :: '/' :: '/' :: (text ++ ending)) rest
  /-- A block of documentation. -/
  | docBlock {text rest : List Char} (htail : CommentTail ('*' :: (text ++ ['*', '/'])))
      (hdoc : IsDocBlock ('*' :: (text ++ ['*', '/']))) (hpaired : ReturnsPaired text) :
      Lexeme (documentation text) ('/' :: '*' :: '*' :: (text ++ ['*', '/'])) rest
  /-- An opening delimiter. A certain comment between parentheses stands for a literal that could
  not be made. -/
  | opening (d : Delimiter) {rest : List Char} (hmark : ¬ faultMark <+: d.chars.1 :: rest) :
      Lexeme [.opening d] [d.chars.1] rest
  | closing (d : Delimiter) {rest : List Char} : Lexeme [.closing d] [d.chars.2] rest
  | word {c : Char} {cs rest : List Char} (hc : isIdentStart c = true)
      (hcs : ∀ d ∈ cs, isIdentContinue d = true) (hends : WordEnds (c :: cs) rest) :
      Lexeme [.ident (String.ofList (c :: cs))] (c :: cs) rest
  /-- A raw name. -/
  | rawWord {c : Char} {cs rest : List Char} (hc : isIdentStart c = true)
      (hcs : ∀ d ∈ cs, isIdentContinue d = true)
      (hmarkable : String.ofList (c :: cs) ∉ unmarkable)
      (hends : ∀ d ∈ rest.head?, isIdentContinue d = false) :
      Lexeme [.ident (String.ofList ('r' :: '#' :: c :: cs))] ('r' :: '#' :: c :: cs) rest
  | mark {c : Char} {joint : Bool} {rest : List Char} (hc : IsMark c rest) (hquote : c ≠ '\x27')
      (hjoint : joint = true ↔ Touches rest) : Lexeme [.punct c joint] [c] rest
  /-- The mark of a lifetime, in front of its name. -/
  | lifetime {c : Char} {cs rest : List Char} (hc : isIdentStart c = true)
      (hcs : ∀ d ∈ cs, isIdentContinue d = true)
      (hends : ∀ d ∈ rest.head?, isIdentContinue d = false ∧ d ≠ '\x27' ∧ d ≠ '#') :
      Lexeme [.punct '\x27' true] ['\x27'] (c :: (cs ++ rest))
  /-- The mark of a lifetime, in front of its raw name. -/
  | rawLifetime {c : Char} {cs rest : List Char} (hc : isIdentStart c = true)
      (hcs : ∀ d ∈ cs, isIdentContinue d = true)
      (hmarkable : String.ofList (c :: cs) ∉ unmarkable)
      (hends : ∀ d ∈ rest.head?, isIdentContinue d = false ∧ d ≠ '\x27') :
      Lexeme [.punct '\x27' true] ['\x27'] ('r' :: '#' :: c :: (cs ++ rest))
  | text {value spelling suffix rest : List Char} (htext : StringText .text value spelling)
      (hsuffix : Suffix suffix rest) :
      Lexeme
        [.literal (.string (String.ofList value) !suffix.isEmpty)
          (String.ofList (spelling ++ suffix))]
        (spelling ++ suffix) rest
  | byteString {value spelling suffix rest : List Char} (htext : StringText .bytes value spelling)
      (hsuffix : Suffix suffix rest) :
      Lexeme [.literal .byteString (String.ofList ('b' :: (spelling ++ suffix)))]
        ('b' :: (spelling ++ suffix)) rest
  | cString {value spelling suffix rest : List Char} (htext : StringText .cText value spelling)
      (hsuffix : Suffix suffix rest) :
      Lexeme [.literal .cString (String.ofList ('c' :: (spelling ++ suffix)))]
        ('c' :: (spelling ++ suffix)) rest
  | char {spelling suffix rest : List Char} (htext : CharText .text spelling)
      (hsuffix : Suffix suffix rest) :
      Lexeme [.literal .char (String.ofList (spelling ++ suffix))] (spelling ++ suffix) rest
  | byte {spelling suffix rest : List Char} (htext : CharText .bytes spelling)
      (hsuffix : Suffix suffix rest) :
      Lexeme [.literal .byte (String.ofList ('b' :: (spelling ++ suffix)))]
        ('b' :: (spelling ++ suffix)) rest
  | integer {spelling suffix rest : List Char} (htext : IntegerText spelling (suffix ++ rest))
      (hsuffix : Suffix suffix rest) (hrest : ∀ c ∈ rest.head?, isIdentContinue c = false) :
      Lexeme [.literal .int (String.ofList (spelling ++ suffix))] (spelling ++ suffix) rest
  | float {spelling suffix rest : List Char} (htext : FloatText spelling (suffix ++ rest))
      (hsuffix : Suffix suffix rest) (hrest : ∀ c ∈ rest.head?, isIdentContinue c = false) :
      Lexeme [.literal .float (String.ofList (spelling ++ suffix))] (spelling ++ suffix) rest
  /-- The comment between parentheses that stands for a literal that could not be made. -/
  | fault {rest : List Char} : Lexeme [.literal .fault (String.ofList faultMark)] faultMark rest

/-- A text in which tokens are written one after another. -/
inductive Written : List Token → List Char → Prop where
  | nil : Written [] []
  | cons {tokens more : List Token} {text rest : List Char} (hfirst : Lexeme tokens text rest)
      (hrest : Written more rest) : Written (tokens ++ more) (text ++ rest)

/-! ## Trees -/

mutual

/-- The tokens of a tree. -/
def Tree.tokens : Tree → List Token
  | .ident s => [.ident s]
  | .punct c joint => [.punct c joint]
  | .literal value s => [.literal value s]
  | .group d content => .opening d :: (treesTokens content ++ [.closing d])

/-- The tokens of a sequence of trees. -/
def treesTokens : List Tree → List Token
  | [] => []
  | t :: rest => t.tokens ++ treesTokens rest

end

/-- Trees are written in a text, which may begin with a byte order mark. -/
def TextOf (ts : List Tree) (text : String) : Prop :=
  ∃ cs, Written (treesTokens ts) cs ∧ (text.toList = cs ∨ text.toList = '\ufeff' :: cs)

end StateMachines.Source
