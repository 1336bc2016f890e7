import DotMatrix.Clock
import DotMatrix.Picture.Gray
import DotMatrix.Video.Schedule

namespace DotMatrix.Player

open Video

-- The last line drawn in each row.
structure Screen where
  rows : Vector Scanline Clock.visibleLines := .replicate _ .blank

namespace Screen

-- Puts a line into its row. There is no row for lines below the screen.
def draw (s : Screen) (line : Nat) (pixels : Scanline) : Option String × Screen :=
  if h : line < Clock.visibleLines then (none, { s with rows := s.rows.set line pixels h })
  else (some s!"Scanline {line} is off screen", s)

instance : LineSink Screen := ⟨draw⟩

-- The gray of a shade: four steps of equal height from white down to black.
def gray (shade : UInt8) : UInt8 := 0xff - 0x55 * (shade &&& 0x3)

def grayRows (s : Screen) : Vector (Vector UInt8 160) Clock.visibleLines := s.rows.map (·.map gray)

def picture (s : Screen) : Picture.Gray := .ofRows s.grayRows

end Screen
end DotMatrix.Player
