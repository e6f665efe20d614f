/-!
# Terminal styles

Colours and weights of text on a terminal, as escape sequences around the text.
-/

namespace CallResolution

/-- Terminal attributes: the codes that switch them on and off again. -/
structure Style where
  /-- The codes that switch on. -/
  on : String
  /-- The codes that switch off. -/
  off : String
  deriving DecidableEq, Repr, Inhabited

namespace Style

/-- A bold colour. -/
def boldColor (code : Nat) : Style := ⟨s!"{code};1", "0;22"⟩

/-- A plain colour. -/
def color (code : Nat) : Style := ⟨toString code, "0"⟩

/-- Bold without a colour. -/
def bold : Style := ⟨"1", "22"⟩

/-- Puts a text between the escape sequences of a style, when colours are on. -/
def paint (enabled : Bool) (s : Style) (text : String) : String :=
  if enabled then s!"\x1b[{s.on}m{text}\x1b[{s.off}m" else text

end Style

end CallResolution
