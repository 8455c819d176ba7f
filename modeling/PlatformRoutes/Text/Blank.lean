namespace PlatformRoutes.Text

/-- The blanks are the Unicode white space together with the four separators U+001C to U+001F.
The zero-width space, the byte order mark and NUL are ordinary characters. -/
def isBlank (c : Char) : Bool :=
  let n := c.toNat
  (9 ≤ n && n ≤ 13) || (28 ≤ n && n ≤ 32) || n == 0x85 || n == 0xA0 || n == 0x1680 ||
    (0x2000 ≤ n && n ≤ 0x200A) || n == 0x2028 || n == 0x2029 || n == 0x202F || n == 0x205F ||
    n == 0x3000

/-- Unicode white space proper: the blanks without the four separators. -/
def isSpace (c : Char) : Bool :=
  isBlank c && !(28 ≤ c.toNat && c.toNat ≤ 31)

def trimRight (p : Char → Bool) (cs : List Char) : List Char :=
  (cs.reverse.dropWhile p).reverse

def trim (p : Char → Bool) (cs : List Char) : List Char :=
  trimRight p (cs.dropWhile p)

/-- The text without the blanks around it. -/
def strip (s : String) : String :=
  String.ofList (trim isBlank s.toList)

/-- The text without the given character at its end, however often it stands there. -/
def stripRight (c : Char) (s : String) : String :=
  String.ofList (trimRight (· == c) s.toList)

def isAsciiDigit (c : Char) : Bool := '0' ≤ c && c ≤ '9'

/-- A letter whose small form is in ASCII becomes that: A to Z, and the Kelvin sign. -/
def lowerChar (c : Char) : Char :=
  if c == '\u212A' then 'k' else c.toLower

def lower (s : String) : String :=
  String.ofList (s.toList.map lowerChar)

def isAscii (s : String) : Bool :=
  s.toList.all (·.toNat < 128)

end PlatformRoutes.Text
