/-!
# Plain text operations

Trimming, comparing and joining of texts, with the character classes that the messages and
options of this library rely on.
-/

namespace CallResolution.Text

/-- White space as Unicode counts it. -/
def isBlank (c : Char) : Bool :=
  let n := c.toNat
  n = 0x20 || (9 ≤ n && n ≤ 13) || n = 0x85 || n = 0xA0 || n = 0x1680 || (0x2000 ≤ n && n ≤ 0x200A)
    || n = 0x2028 || n = 0x2029 || n = 0x202F || n = 0x205F || n = 0x3000

/-- Drops the characters of a class from the end of a list. -/
def dropEndWhile (p : Char → Bool) (cs : List Char) : List Char :=
  (cs.reverse.dropWhile p).reverse

/-- Drops white space at both ends. -/
def trimBlanks (s : String) : String :=
  String.ofList (dropEndWhile isBlank (s.toList.dropWhile isBlank))

/-- The lower-case form of a character, as far as it matters for comparing with ASCII words:
the dotted capital I and the Kelvin sign have ASCII lower-case forms too. -/
def lowerForWord (c : Char) : Char :=
  if c.toNat = 0x130 then 'i' else if c.toNat = 0x212A then 'k' else c.toLower

/-- Capital letters above ASCII with a lower-case form of another number of bytes, and that
form. -/
def resizedLetters : List (Nat × Nat) :=
  [(0x130, 0x69), (0x23A, 0x2C65), (0x23E, 0x2C66), (0x1E9E, 0xDF), (0x2126, 0x3C9), (0x212A, 0x6B),
   (0x212B, 0xE5), (0x2C62, 0x26B), (0x2C64, 0x27D), (0x2C6D, 0x251), (0x2C6E, 0x271), (0x2C6F, 0x250),
   (0x2C70, 0x252), (0x2C7E, 0x23F), (0x2C7F, 0x240), (0xA78D, 0x265), (0xA7AA, 0x266), (0xA7AB, 0x25C),
   (0xA7AC, 0x261), (0xA7AD, 0x26C), (0xA7AE, 0x26A), (0xA7B0, 0x29E), (0xA7B1, 0x287), (0xA7B2, 0x29D),
   (0xA7C5, 0x282), (0xA7CB, 0x264), (0xA7DC, 0x19B)]

/-- The lower-case form of a character, as far as it matters for comparing with ASCII words
byte by byte. -/
def lowerForBytes (c : Char) : Char :=
  ((resizedLetters.lookup c.toNat).map Char.ofNat).getD c.toLower

/-- A text made ready to be compared with lower-case ASCII words. -/
def normalWord (s : String) : String :=
  String.ofList ((trimBlanks s).toList.map lowerForWord)

/-- A text repeated. -/
def repeatText (n : Nat) (s : String) : String :=
  String.join (List.replicate n s)

/-- Fills up with spaces on the left. -/
def padLeft (width : Nat) (s : String) : String :=
  repeatText (width - s.length) " " ++ s

/-- Fills up with zeros on the left. -/
def padZeros (width : Nat) (s : String) : String :=
  repeatText (width - s.length) "0" ++ s

/-- Whether the bytes of one text come before those of another. -/
def textLt (a b : String) : Bool :=
  decide (a < b)

/-- Replaces every occurrence of a character by a text. -/
def replaceChar (c : Char) (r : String) (s : String) : String :=
  String.ofList (s.toList.flatMap fun d => if d = c then r.toList else [d])

end CallResolution.Text
