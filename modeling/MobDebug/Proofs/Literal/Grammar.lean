import MobDebug.Literal.Reader
import MobDebug.Proofs.Literal.Names

/-!
The grammar of literals: which bytes stand for what. Nothing here says how a text is read, and no
rule looks at what stands behind it, but for two: an escape in a quoted string is as long as it can
be, and a comment that marks a reference belongs to the nil before it.
-/
namespace MobDebug.Literal

/-- Texts, each with what it stands for. -/
abbrev Language (α : Type) := List UInt8 → α → Prop

/-! ### Space and comments -/

/-- An opening long bracket. -/
def opener (level : Nat) : List UInt8 :=
  ascii '[' :: (List.replicate level (ascii '=') ++ [ascii '['])

/-- A closing long bracket without its last byte. -/
def closerStem (level : Nat) : List UInt8 :=
  ascii ']' :: List.replicate level (ascii '=')

/-- A closing long bracket. -/
def closer (level : Nat) : List UInt8 :=
  closerStem level ++ [ascii ']']

/-- A long bracket and its content, which a line break directly behind the opening is no part of.
The first closing bracket of its level ends it. -/
inductive LongBracket : Language (List UInt8)
  | mk {level : Nat} {raw content : List UInt8} (hr : dropLineBreak raw = content)
      (hc : ¬ closer level <:+: content ++ closerStem level) :
      LongBracket (opener level ++ (raw ++ closer level)) content

/-- What begins a comment. -/
def dashes : List UInt8 := [ascii '-', ascii '-']

/-- A comment up to the end of its line. It opens no long bracket. -/
inductive LineComment : List UInt8 → Prop
  | mk {body : List UInt8} (hl : ascii '\n' ∉ body) (hb : ∀ level, ¬ opener level <+: body) :
      LineComment (dashes ++ body)

/-- Space and comments, each of them closed. -/
inductive Trivia : List UInt8 → Prop
  | none : Trivia []
  | space {b : UInt8} {g : List UInt8} (hb : isSpace b) (hg : Trivia g) : Trivia (b :: g)
  | line {c g : List UInt8} (hc : LineComment c) (hg : Trivia g) : Trivia (c ++ ascii '\n' :: g)
  | long {s content g : List UInt8} (hs : LongBracket s content) (hg : Trivia g) :
      Trivia (dashes ++ (s ++ g))

/-- Space and comments at the end of a text, which may end a line comment. -/
inductive Trailing : List UInt8 → Prop
  | closed {g : List UInt8} (hg : Trivia g) : Trailing g
  | line {g c : List UInt8} (hg : Trivia g) (hc : LineComment c) : Trailing (g ++ c)

/-! ### Numbers -/

/-- An exponent of ten: its mark, perhaps a sign, and digits. -/
inductive Exponent : List Char → Prop
  | mk {mark : Char} {sign ds : List Char} (hm : mark = 'e' ∨ mark = 'E')
      (hs : sign = [] ∨ sign = ['-'] ∨ sign = ['+']) (hne : ds ≠ []) (hd : ∀ c ∈ ds, c.isDigit) :
      Exponent (mark :: (sign ++ ds))

/-- Digits, which may have a point among them or at either end, and perhaps an exponent. -/
inductive Decimal : List Char → Prop
  | mk {whole fraction exponent : List Char} (hw : ∀ c ∈ whole, c.isDigit)
      (hf : fraction = [] ∨ ∃ ds, fraction = '.' :: ds ∧ ∀ c ∈ ds, c.isDigit)
      (hd : ∃ c ∈ whole ++ fraction, c.isDigit) (he : exponent = [] ∨ Exponent exponent) :
      Decimal (whole ++ (fraction ++ exponent))

/-- Hexadecimal digits and their values. -/
abbrev HexRun : Language (List Nat) :=
  List.Forall₂ fun b d => hexDigit? b = some d

/-- Hexadecimal digits with at most one point, and how many of them follow it. -/
inductive HexMantissa : List UInt8 → List Nat → Option Nat → Prop
  | whole {s : List UInt8} {ds : List Nat} (h : HexRun s ds) (hne : ds ≠ []) : HexMantissa s ds none
  | pointed {s t : List UInt8} {ds es : List Nat} (h : HexRun s ds) (h' : HexRun t es)
      (hne : ds ++ es ≠ []) : HexMantissa (s ++ ascii '.' :: t) (ds ++ es) (some es.length)

/-- An exponent of two: whether it is negative, and its absolute value, which is below `2 ^ 63`. -/
inductive HexPower : List UInt8 → Bool → Nat → Prop
  | mk {mark : UInt8} {sign ds : List UInt8} {negative : Bool}
      (hm : mark = ascii 'p' ∨ mark = ascii 'P')
      (hs : negative = false ∧ (sign = [] ∨ sign = [ascii '+']) ∨
        negative = true ∧ sign = [ascii '-'])
      (hne : ds ≠ []) (hd : ∀ b ∈ ds, isDigit b)
      (hlt : Text.ofDigits (ds.map byteChar) < Nat.pow 2 63) :
      HexPower (mark :: (sign ++ ds)) negative (Text.ofDigits (ds.map byteChar))

/-- A numeral without a sign. -/
inductive Numeral : Language Number
  | decimal {cs : List Char} {n : Number} (h : Decimal cs) (hn : readDecimal? cs = some n) :
      Numeral (cs.map ascii) n
  | hex {x : UInt8} {s : List UInt8} {ds : List Nat} (hx : x = ascii 'x' ∨ x = ascii 'X')
      (h : HexMantissa s ds none) : Numeral (ascii '0' :: x :: s) (.int (hexInteger ds))
  | hexPointed {x : UInt8} {s : List UInt8} {ds : List Nat} {fraction : Nat}
      (hx : x = ascii 'x' ∨ x = ascii 'X') (h : HexMantissa s ds (some fraction)) :
      Numeral (ascii '0' :: x :: s) (.float (hexFloat ds (hexExponent fraction false 0)))
  | hexScaled {x : UInt8} {s e : List UInt8} {ds : List Nat} {fraction : Option Nat}
      {negative : Bool} {written : Nat} (hx : x = ascii 'x' ∨ x = ascii 'X')
      (h : HexMantissa s ds fraction) (he : HexPower e negative written) :
      Numeral (ascii '0' :: x :: (s ++ e))
        (.float (hexFloat ds (hexExponent (fraction.getD 0) negative written)))

/-- What a minus may stand before. -/
inductive Magnitude : Language Number
  | numeral {s : List UInt8} {n : Number} (h : Numeral s n) : Magnitude s n
  | huge : Magnitude (Text.bytes "math.huge") (.float (.infinite false))

/-! ### Strings -/

/-- The number of hexadecimal digits. -/
def hexNumber (ds : List Nat) : Nat :=
  ds.foldl (fun n d => n * 16 + d) 0

/-- What may follow a backslash, and the bytes that it stands for, where the byte `next` is the one
behind it. -/
inductive Escape : List UInt8 → List UInt8 → Option UInt8 → Prop
  | named {b byte : UInt8} {next : Option UInt8} (h : namedEscape? b = some byte) :
      Escape [b] [byte] next
  | lineEnd {b : UInt8} {next : Option UInt8} (hb : isLineEnd b)
      (hn : ∀ c ∈ next, isLineEnd c → c = b) : Escape [b] [0x0a] next
  | lineEnds {b c : UInt8} {next : Option UInt8} (hb : isLineEnd b) (hc : isLineEnd c)
      (hne : c ≠ b) : Escape [b, c] [0x0a] next
  | gap {g : List UInt8} {next : Option UInt8} (hg : ∀ b ∈ g, isSpace b)
      (hn : ∀ b ∈ next, isSpace b = false) : Escape (ascii 'z' :: g) [] next
  | hex {hi lo : UInt8} {h l : Nat} {next : Option UInt8} (hh : hexDigit? hi = some h)
      (hl : hexDigit? lo = some l) : Escape [ascii 'x', hi, lo] [UInt8.ofNat (h * 16 + l)] next
  | decimal {ds : List UInt8} {next : Option UInt8} (hne : ds ≠ []) (hlen : ds.length ≤ 3)
      (hd : ∀ b ∈ ds, isDigit b) (hlt : Text.ofDigits (ds.map byteChar) < 256)
      (hn : ds.length = 3 ∨ ∀ b ∈ next, isDigit b = false) :
      Escape ds [UInt8.ofNat (Text.ofDigits (ds.map byteChar))] next
  | code {s : List UInt8} {ds : List Nat} {next : Option UInt8} (h : HexRun s ds) (hne : ds ≠ [])
      (hv : (hexNumber ds).isValidChar) :
      Escape (ascii 'u' :: ascii '\x7b' :: (s ++ [ascii '\x7d']))
        (String.utf8EncodeChar (Char.ofNat (hexNumber ds))) next

/-- A quoted string from behind its opening quote, and its content. -/
inductive Quoted (quote : UInt8) : Language (List UInt8)
  | close : Quoted quote [quote] []
  | raw {b : UInt8} {s content : List UInt8} (hq : b ≠ quote) (hl : isLineEnd b = false)
      (hb : b ≠ ascii '\\') (h : Quoted quote s content) : Quoted quote (b :: s) (b :: content)
  | escape {e read s content : List UInt8} (he : Escape e read s.head?)
      (h : Quoted quote s content) : Quoted quote (ascii '\\' :: (e ++ s)) (read ++ content)

/-! ### Literals -/

/-- The content of a comment that marks a reference with this label. -/
def Marks (content : List UInt8) (label : String) : Prop :=
  ∃ body, Text.trim (Text.decodeLossy content).toList = 'r' :: 'e' :: 'f' :: body ∧
    (∀ c ∈ body.head?, Text.isBlank c) ∧ label = String.ofList (Text.trim body)

/-- A comment that marks a reference, and space before it. -/
inductive Mark : Language String
  | mk {g s content : List UInt8} {label : String} (hg : ∀ b ∈ g, isSpace b)
      (hs : LongBracket s content) (hm : Marks content label) : Mark (g ++ (dashes ++ s)) label

/-- The text begins with a comment that marks a reference. -/
def Marked (s : List UInt8) : Prop :=
  ∃ m label, Mark m label ∧ m <+: s

/-- A literal, tables left to `table`. -/
inductive Lit (table : Language Value) : Language Value
  | nil : Lit table (Text.bytes "nil") .nil
  | reference {m : List UInt8} {label : String} (h : Mark m label) :
      Lit table (Text.bytes "nil" ++ m) (.reference label)
  | bool (b : Bool) : Lit table (Text.bytes (toString b)) (.bool b)
  | number {s : List UInt8} {n : Number} (h : Magnitude s n) : Lit table s (.number n)
  | nan : Lit table (Text.bytes "0/0") (.number (.float .nan))
  | negative {g s : List UInt8} {n : Number} (hg : Trivia g) (hd : g.head? ≠ some (ascii '-'))
      (h : Magnitude s n) : Lit table (ascii '-' :: (g ++ s)) (.number n.negate)
  | quoted {quote : UInt8} {s content : List UInt8} (hq : quote = ascii '"' ∨ quote = ascii '\'')
      (h : Quoted quote s content) : Lit table (quote :: s) (.str (Text.decodeLossy content))
  | long {s content : List UInt8} (h : LongBracket s content) :
      Lit table s (.str (Text.decodeLossy content))
  | function {g₁ g₂ g₃ : List UInt8} (h₁ : Trivia g₁) (h₂ : Trivia g₂) (h₃ : Trivia g₃) :
      Lit table (Text.bytes "function" ++ (g₁ ++ ascii '(' :: (g₂ ++ ascii ')' ::
        (g₃ ++ Text.bytes "end")))) .function
  | table {s : List UInt8} {v : Value} (h : table s v) : Lit table s v

/-- A literal and what trivia stands behind it. What marks a reference belongs to the literal. -/
inductive Padded (literal : Language Value) : Language Value
  | mk {s g : List UInt8} {v : Value} (hs : literal s v) (hg : Trivia g)
      (hm : v = .nil → ¬ Marked g) : Padded literal (s ++ g) v

/-- A table entry and its key, if it has one. A name that is reserved is none, and two opening
brackets begin a string. -/
inductive Entry (item : Language Value) : Language (Option Key × Value)
  | positional {s : List UInt8} {v : Value} (h : item s v) : Entry item s (none, v)
  | named {name : String} {g₁ g₂ s : List UInt8} {v : Value} (hw : IsWord name)
      (hr : reservedWords.contains name = false) (h₁ : Trivia g₁) (h₂ : Trivia g₂) (h : item s v) :
      Entry item (Text.bytes name ++ (g₁ ++ ascii '=' :: (g₂ ++ s))) (some (.str name), v)
  | keyed {g₁ g₂ g₃ s t : List UInt8} {w v : Value} {k : Key} (h₁ : Trivia g₁) (hk : item s w)
      (hw : Key.ofValue? w = some k) (hb : (g₁ ++ s).head? ≠ some (ascii '[')) (h₂ : Trivia g₂)
      (h₃ : Trivia g₃) (h : item t v) :
      Entry item (ascii '[' :: (g₁ ++ (s ++ ascii ']' :: (g₂ ++ ascii '=' :: (g₃ ++ t)))))
        (some k, v)

/-- The entries of a table, with a separator behind all but the last, and perhaps behind that. -/
inductive Fields (item : Language Value) : Language (List (Option Key × Value))
  | none {g : List UInt8} (hg : Trivia g) : Fields item g []
  | last {g s : List UInt8} {e : Option Key × Value} (hg : Trivia g) (h : Entry item s e) :
      Fields item (g ++ s) [e]
  | more {g s r : List UInt8} {b : UInt8} {e : Option Key × Value} {es : List (Option Key × Value)}
      (hg : Trivia g) (h : Entry item s e) (hb : b = ascii ',' ∨ b = ascii ';')
      (hr : Fields item r es) : Fields item (g ++ (s ++ b :: r)) (e :: es)

/-- Assigns entries to `t` one after the other; the next one without a key goes to position `n`. -/
def Table.assign (t : Table) (n : Nat) : List (Option Key × Value) → Table
  | [] => t
  | (key, v) :: es =>
    assign (t.insert (key.getD (.position n)) v) (if key.isNone then n + 1 else n) es

/-- A table in braces. -/
inductive Braces (item : Language Value) : Language Value
  | mk {s : List UInt8} {es : List (Option Key × Value)} (h : Fields item s es) :
      Braces item (ascii '\x7b' :: (s ++ [ascii '\x7d'])) (.table (Table.assign [] 1 es))

/-- A table in which tables nest at most `depth` levels deep, itself counted. -/
def DerivesTable : Nat → Language Value
  | 0 => fun _ _ => False
  | depth + 1 => Braces (Padded (Lit (DerivesTable depth)))

/-- A literal in which tables nest at most `depth` levels deep. -/
def Derives (depth : Nat) : Language Value :=
  Lit (DerivesTable depth)

end MobDebug.Literal
