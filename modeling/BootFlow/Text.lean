namespace BootFlow.Text

def bytes (text : String) : List UInt8 :=
  text.toList.flatMap String.utf8EncodeChar

/-- The text that has these UTF-8 bytes, if they are well formed. -/
def ofBytes? (encoded : List UInt8) : Option String :=
  String.fromUTF8? ⟨encoded.toArray⟩

/-- The longest run of whole characters from the start that takes up at most
`limit` UTF-8 bytes. Nothing is kept after the first character that does not fit. -/
def takeBytes (limit : Nat) : List Char → List Char
  | [] => []
  | c :: rest =>
      if c.utf8Size ≤ limit then c :: takeBytes (limit - c.utf8Size) rest else []

/-! Blank characters are those with Unicode's White_Space property. Trimming
removes them from the ends of a text, whatever the script. -/

/-- The White_Space code points, as ranges with both ends included. -/
def blankRanges : List (Nat × Nat) :=
  [(0x09, 0x0d), (0x20, 0x20), (0x85, 0x85), (0xa0, 0xa0), (0x1680, 0x1680),
   (0x2000, 0x200a), (0x2028, 0x2029), (0x202f, 0x202f), (0x205f, 0x205f), (0x3000, 0x3000)]

def isBlank (c : Char) : Bool :=
  blankRanges.any fun (first, last) => first ≤ c.toNat && c.toNat ≤ last

/-- The characters without the blank ones that precede all others. -/
def trimStart (chars : List Char) : List Char :=
  chars.dropWhile isBlank

/-- The characters without the blank ones that follow all others. -/
def trimEnd (chars : List Char) : List Char :=
  (chars.reverse.dropWhile isBlank).reverse

def trim (chars : List Char) : List Char :=
  trimEnd (trimStart chars)

/-- The lines of a text: what stands before, between and after its line feeds.
There is always one line more than there are line feeds. -/
def lines : List Char → List (List Char)
  | [] => [[]]
  | c :: rest =>
      if c = '\n' then [] :: lines rest
      else match lines rest with
        | [] => [[c]]
        | first :: others => (c :: first) :: others

/-! Numbers as text. Written numbers have no leading zeros unless a width is
asked for, and hexadecimal digits are lower case. Read numbers may have both
cases, a leading plus sign and any number of leading zeros. -/

def decimal (n : Nat) : String :=
  String.ofList (Nat.toDigits 10 n)

def signedDecimal (n : Int) : String :=
  if n < 0 then "-" ++ decimal n.natAbs else decimal n.natAbs

def hex (n : Nat) : String :=
  String.ofList (Nat.toDigits 16 n)

/-- Hexadecimal text of at least `width` digits, filled up with zeros. -/
def hexPadded (width n : Nat) : String :=
  String.ofList ((Nat.toDigits 16 n).leftpad width '0')

def digitValue? (c : Char) : Option Nat :=
  if '0' ≤ c ∧ c ≤ '9' then some (c.toNat - '0'.toNat)
  else if 'a' ≤ c ∧ c ≤ 'f' then some (c.toNat - 'a'.toNat + 10)
  else if 'A' ≤ c ∧ c ≤ 'F' then some (c.toNat - 'A'.toNat + 10)
  else none

/-- The number whose digits follow those of `value`, most significant first. -/
def positional? (base : Nat) : List Char → Nat → Option Nat
  | [], value => some value
  | c :: rest, value =>
      match digitValue? c with
      | some digit => if digit < base then positional? base rest (value * base + digit) else none
      | none => none

/-- A numeral has one digit at least, and may have a plus sign before them. -/
def numeral? (base : Nat) : List Char → Option Nat
  | [] => none
  | ['+'] => none
  | '+' :: digits => positional? base digits 0
  | digits => positional? base digits 0

/-- Reads a number below 2 ^ 64, decimal or marked as hexadecimal by `0x`. -/
def readNumber? (chars : List Char) : Option Nat :=
  let value := match chars with
    | '0' :: 'x' :: digits => numeral? 16 digits
    | '0' :: 'X' :: digits => numeral? 16 digits
    | digits => numeral? 10 digits
  value.filter (· < UInt64.size)

end BootFlow.Text
