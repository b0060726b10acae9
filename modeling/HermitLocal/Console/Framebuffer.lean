import Mathlib.Data.List.Basic
import Mathlib.Tactic.Linarith

/-! The text console on the framebuffer: a cursor over a grid of cells, glyphs drawn at twice their size, and every
pixel it writes. Coordinates are machine words. -/

namespace HermitLocal.Console.Framebuffer
open List

def GLYPH_WIDTH : Nat := 8
def FONT_HEIGHT : Nat := 16
def FONT_SCALE_X : Nat := 2
def FONT_SCALE_Y : Nat := 2
def CELL_WIDTH : Nat := GLYPH_WIDTH * FONT_SCALE_X + 1
def CELL_HEIGHT : Nat := FONT_HEIGHT * FONT_SCALE_Y
def FG_COLOR : UInt32 := 0x00ffff00
def BG_COLOR : UInt32 := 0x00000000

def glyphs : List Nat :=
  [0x00000000000000000000000000000000, 0x00001818181818181800181800000000, 0x00006c6c6c0000000000000000000000,
   0x00006c6cfe6c6cfe6c6c000000000000, 0x18187cc6c2780606867c181800000000, 0x00000000c2c60c183063430000000000,
   0x0000386c6c3876cccccc760000000000, 0x00003030300000000000000000000000, 0x00000c183030303030180c0000000000,
   0x000030180c0c0c0c0c18300000000000, 0x00000018db7e18187edb180000000000, 0x000000181818ff181818000000000000,
   0x00000000000000000018183000000000, 0x000000000000ff000000000000000000, 0x00000000000000000018180000000000,
   0x00000002060c183060c0400000000000, 0x00003c66666e766666663c0000000000, 0x000018381818181818187e0000000000,
   0x00003c66060c183060667e0000000000, 0x00003c66061c060606663c0000000000, 0x0000060e1e36667f06060f0000000000,
   0x00007e60607c060606663c0000000000, 0x00001c30607c666666663c0000000000, 0x00007e06060c18303030300000000000,
   0x00003c66663c666666663c0000000000, 0x00003c6666663e060c18700000000000, 0x00000000181800000018180000000000,
   0x00000000181800000018183000000000, 0x0000000c18306030180c000000000000, 0x00000000007f007f0000000000000000,
   0x00000030180c060c1830000000000000, 0x00003c66060c18180018180000000000, 0x00003c66065e6666665e000000000000,
   0x0000183c66667e666666660000000000, 0x0000fc66667c66666666fc0000000000, 0x00003c666060606060663c0000000000,
   0x0000f86c66666666666cf80000000000, 0x00007e606078606060607e0000000000, 0x00007e60607860606060600000000000,
   0x00003c6660606e6666663c0000000000, 0x00006666667e66666666660000000000, 0x00003c181818181818183c0000000000,
   0x00000e060606060606663c0000000000, 0x0000666c7870786c6666660000000000, 0x000060606060606060607e0000000000,
   0x00006363777f6b636363630000000000, 0x00006666767e7e6e6666660000000000, 0x00003c666666666666663c0000000000,
   0x0000fc6666667c606060600000000000, 0x00003c66666666666e3c020000000000, 0x0000fc6666667c6c6666660000000000,
   0x00003c66603c060606663c0000000000, 0x00007e5a181818181818180000000000, 0x000066666666666666663c0000000000,
   0x0000666666666666663c180000000000, 0x00006363636b7f776363630000000000, 0x000066663c1818183c66660000000000,
   0x00006666663c181818183c0000000000, 0x00007e060c18306060607e0000000000, 0x00003e303030303030303e0000000000,
   0x000000406030180c0603010000000000, 0x00003e0e0e0e0e0e0e0e3e0000000000, 0x183c6600000000000000000000000000,
   0x0000000000000000000000ff00000000, 0x30180c00000000000000000000000000, 0x000000003c063e6666663e0000000000,
   0x000060607c66666666667c0000000000, 0x000000003c66606060663c0000000000, 0x000006063e66666666663e0000000000,
   0x000000003c667e6060663c0000000000, 0x00001c30307c30303030300000000000, 0x000000003e6666663e063c0000000000,
   0x000060607c6666666666660000000000, 0x00001818001818181818180000000000, 0x000006060006060606663c0000000000,
   0x00006060666c7870786c660000000000, 0x00003030303030303030300000000000, 0x00000000366b6b6b6b6b6b0000000000,
   0x000000007c6666666666660000000000, 0x000000003c66666666663c0000000000, 0x000000007c6666667c60600000000000,
   0x000000003e6666663e06060000000000, 0x000000007c6660606060600000000000, 0x000000003e603c06067c000000000000,
   0x000018187e18181818180c0000000000, 0x000000006666666666663e0000000000, 0x0000000066666666663c180000000000,
   0x00000000636b6b6b6b7f630000000000, 0x00000000663c18183c66660000000000, 0x00000000666666663e063c0000000000,
   0x000000007e0c183060607e0000000000]

def rowsOf (number : Nat) : List UInt8 :=
  (range FONT_HEIGHT).map fun row => UInt8.ofNat (number >>> (8 * (FONT_HEIGHT - 1 - row)))

def FONT : List UInt8 := glyphs.flatMap rowsOf

theorem font_length : FONT.length = 91 * FONT_HEIGHT := by decide +kernel

def usize (value : Nat) : Nat := value % 2 ^ 64

theorem usize_le (value : Nat) : usize value ≤ value := Nat.mod_le _ _

inductive FramebufferFormat where
  | rgb
  | bgr
  | unknown
  deriving DecidableEq, Repr

structure FramebufferInfo where
  address : Nat
  width : Nat
  height : Nat
  stride : Nat
  format : FramebufferFormat
  deriving Repr

def encodePixel (format : FramebufferFormat) (color : UInt32) : Option UInt32 :=
  let r := (color >>> 16) &&& 0xff
  let g := (color >>> 8) &&& 0xff
  let b := color &&& 0xff
  match format with
  | .rgb => some ((b <<< 16) ||| (g <<< 8) ||| r)
  | .bgr => some color
  | .unknown => none

structure Pixel where
  x : Nat
  y : Nat
  color : UInt32

structure Store where
  x : Nat
  y : Nat
  offset : Nat
  value : UInt32
  deriving Repr

structure GopConsole where
  info : FramebufferInfo
  cursorCol : Nat
  cursorRow : Nat
  cols : Nat
  rows : Nat
  stores : List Store

namespace GopConsole

def writePixel (console : GopConsole) (pixel : Pixel) : GopConsole :=
  match encodePixel console.info.format pixel.color with
  | none => console
  | some value =>
    let offset := usize (usize (pixel.y * console.info.stride) + pixel.x)
    { console with stores := console.stores ++ [⟨pixel.x, pixel.y, offset, value⟩] }

def writePixels (console : GopConsole) (pixels : List Pixel) : GopConsole := pixels.foldl writePixel console

def screenPixels (info : FramebufferInfo) : List Pixel :=
  (range info.height).flatMap fun y => (range info.width).map fun x => ⟨x, y, BG_COLOR⟩

def clearScreen (console : GopConsole) : GopConsole := console.writePixels (screenPixels console.info)

def cellPixels (col row : Nat) : List Pixel :=
  let x0 := usize (col * CELL_WIDTH)
  let y0 := usize (row * CELL_HEIGHT)
  (range CELL_HEIGHT).flatMap fun y =>
    (range CELL_WIDTH).map fun x => ⟨usize (x0 + x), usize (y0 + y), BG_COLOR⟩

def clearCell (console : GopConsole) (col row : Nat) : GopConsole := console.writePixels (cellPixels col row)

def new (framebufferInfo : Option FramebufferInfo) : Option GopConsole :=
  match framebufferInfo with
  | none => none
  | some info =>
    if info.width < CELL_WIDTH ∨ info.height < CELL_HEIGHT then none
    else if ¬ (info.format = .rgb ∨ info.format = .bgr) then none
    else
      let console : GopConsole :=
        { info := info, cursorCol := 0, cursorRow := 0, cols := info.width / CELL_WIDTH,
          rows := info.height / CELL_HEIGHT, stores := [] }
      some console.clearScreen

def scroll (console : GopConsole) : GopConsole := { console.clearScreen with cursorRow := 0 }

def newline (console : GopConsole) : GopConsole :=
  let moved := { console with cursorCol := 0, cursorRow := usize (console.cursorRow + 1) }
  if moved.cursorRow ≥ moved.rows then moved.scroll else moved

def backspace (console : GopConsole) : GopConsole :=
  if console.cursorCol > 0 then
    let moved := { console with cursorCol := console.cursorCol - 1 }
    moved.clearCell moved.cursorCol moved.cursorRow
  else console

end GopConsole

def glyphIndex (byte : UInt8) : Nat :=
  min (byte.toNat - (0x20 : UInt8).toNat) (FONT.length / FONT_HEIGHT - 1)

def glyph (byte : UInt8) : Option (List UInt8) :=
  if (glyphIndex byte + 1) * FONT_HEIGHT ≤ FONT.length then
    some ((FONT.drop (glyphIndex byte * FONT_HEIGHT)).take FONT_HEIGHT)
  else none

def scaledPixels (pixelX pixelY : Nat) (color : UInt32) : List Pixel :=
  (range FONT_SCALE_Y).flatMap fun dy =>
    (range FONT_SCALE_X).map fun dx => ⟨usize (pixelX + dx), usize (pixelY + dy), color⟩

def glyphPixels (x0 y0 : Nat) (bitmap : List UInt8) : List Pixel :=
  bitmap.zipIdx.flatMap fun (bits, row) =>
    (range GLYPH_WIDTH).flatMap fun col =>
      let mask : UInt8 := (1 : UInt8) <<< (7 - UInt8.ofNat col)
      let color := if bits &&& mask ≠ 0 then FG_COLOR else BG_COLOR
      scaledPixels (usize (x0 + col * FONT_SCALE_X)) (usize (y0 + row * FONT_SCALE_Y)) color

namespace GopConsole

def place (console : GopConsole) (bitmap : List UInt8) : GopConsole :=
  let x0 := usize (console.cursorCol * CELL_WIDTH)
  let y0 := usize (console.cursorRow * CELL_HEIGHT)
  let drawn := console.writePixels (glyphPixels x0 y0 bitmap)
  { drawn with cursorCol := usize (drawn.cursorCol + 1) }

def wrapped (console : GopConsole) : GopConsole := if console.cursorCol ≥ console.cols then console.newline else console

def drawGlyph (console : GopConsole) (byte : UInt8) : Option GopConsole :=
  (glyph byte).map console.wrapped.place

def drawBlanks : Nat → GopConsole → Option GopConsole
  | 0, console => some console
  | count + 1, console => (console.drawGlyph 0x20).bind (drawBlanks count)

def writeByte (console : GopConsole) (byte : UInt8) : Option GopConsole :=
  if byte = 0x0c then some { console.clearScreen with cursorCol := 0, cursorRow := 0 }
  else if byte = 0x0a then some console.newline
  else if byte = 0x0d then some { console with cursorCol := 0 }
  else if byte = 0x08 ∨ byte = 0x7f then some console.backspace
  else if byte = 0x09 then drawBlanks 4 console
  else if 0x20 ≤ byte ∧ byte ≤ 0x7e then console.drawGlyph byte
  else console.drawGlyph 0x3f

def write : GopConsole → List UInt8 → Option GopConsole
  | console, [] => some console
  | console, byte :: rest => (console.writeByte byte).bind (write · rest)

end GopConsole

def writeBytes (screen : Option GopConsole) (bytes : List UInt8) : Option (Option GopConsole) :=
  match screen with
  | none => some none
  | some console => (console.write bytes).map some

/-! Where the pixels lie. -/

def Pixel.Inside (info : FramebufferInfo) (pixel : Pixel) : Prop := pixel.x < info.width ∧ pixel.y < info.height

def Store.Inside (info : FramebufferInfo) (store : Store) : Prop :=
  store.x < info.width ∧ store.y < info.height ∧ store.offset < info.stride * info.height

section Inside
variable {info : FramebufferInfo}

theorem screenPixels_inside : ∀ pixel ∈ GopConsole.screenPixels info, pixel.Inside info := by
  intro pixel member
  obtain ⟨y, line, member⟩ := mem_flatMap.mp member
  obtain ⟨x, column, rfl⟩ := mem_map.mp member
  exact ⟨mem_range.mp column, mem_range.mp line⟩

theorem cell_column {col x : Nat} (column : col < info.width / CELL_WIDTH) (within : x < CELL_WIDTH) :
    usize (col * CELL_WIDTH) + x < info.width := by
  have start := usize_le (col * CELL_WIDTH)
  calc usize (col * CELL_WIDTH) + x < col * CELL_WIDTH + CELL_WIDTH := by omega
    _ = (col + 1) * CELL_WIDTH := (Nat.succ_mul col CELL_WIDTH).symm
    _ ≤ info.width / CELL_WIDTH * CELL_WIDTH := Nat.mul_le_mul_right _ column
    _ ≤ info.width := Nat.div_mul_le_self _ _

theorem cell_row {row y : Nat} (line : row < info.height / CELL_HEIGHT) (within : y < CELL_HEIGHT) :
    usize (row * CELL_HEIGHT) + y < info.height := by
  have start := usize_le (row * CELL_HEIGHT)
  calc usize (row * CELL_HEIGHT) + y < row * CELL_HEIGHT + CELL_HEIGHT := by omega
    _ = (row + 1) * CELL_HEIGHT := (Nat.succ_mul row CELL_HEIGHT).symm
    _ ≤ info.height / CELL_HEIGHT * CELL_HEIGHT := Nat.mul_le_mul_right _ line
    _ ≤ info.height := Nat.div_mul_le_self _ _

variable {col row : Nat} (column : col < info.width / CELL_WIDTH) (line : row < info.height / CELL_HEIGHT)

include column line

theorem cellPixels_inside : ∀ pixel ∈ GopConsole.cellPixels col row, pixel.Inside info := by
  intro pixel member
  obtain ⟨y, below, member⟩ := mem_flatMap.mp member
  obtain ⟨x, across, rfl⟩ := mem_map.mp member
  have right := cell_column column (mem_range.mp across)
  have bottom := cell_row line (mem_range.mp below)
  exact ⟨Nat.lt_of_le_of_lt (usize_le _) right, Nat.lt_of_le_of_lt (usize_le _) bottom⟩

theorem glyphPixels_inside {bitmap : List UInt8} (high : bitmap.length ≤ FONT_HEIGHT) :
    ∀ pixel ∈ glyphPixels (usize (col * CELL_WIDTH)) (usize (row * CELL_HEIGHT)) bitmap, pixel.Inside info := by
  intro pixel member
  obtain ⟨⟨bits, bitRow⟩, bitmapRow, member⟩ := mem_flatMap.mp member
  obtain ⟨bitCol, bitColumn, member⟩ := mem_flatMap.mp member
  obtain ⟨dy, below, member⟩ := mem_flatMap.mp member
  obtain ⟨dx, across, rfl⟩ := mem_map.mp member
  have rowBound : bitRow < bitmap.length := (mem_zipIdx bitmapRow).2.1.trans_eq (Nat.zero_add _)
  rw [mem_range] at bitColumn below across
  have right := cell_column (x := bitCol * FONT_SCALE_X + dx) column (by
    unfold CELL_WIDTH GLYPH_WIDTH FONT_SCALE_X at *
    omega)
  have bottom := cell_row (y := bitRow * FONT_SCALE_Y + dy) line (by
    unfold CELL_HEIGHT FONT_HEIGHT FONT_SCALE_Y at *
    omega)
  have pixelX := usize_le (usize (col * CELL_WIDTH) + bitCol * FONT_SCALE_X)
  have pixelY := usize_le (usize (row * CELL_HEIGHT) + bitRow * FONT_SCALE_Y)
  apply And.intro
  · exact Nat.lt_of_le_of_lt (usize_le _) (by omega)
  · exact Nat.lt_of_le_of_lt (usize_le _) (by omega)

end Inside

theorem glyph_in_font (byte : UInt8) : (glyphIndex byte + 1) * FONT_HEIGHT ≤ FONT.length := by
  have last : glyphIndex byte ≤ FONT.length / FONT_HEIGHT - 1 := Nat.min_le_right _ _
  rw [font_length] at last ⊢
  unfold FONT_HEIGHT at last ⊢
  omega

theorem glyph_defined (byte : UInt8) : ∃ bitmap, glyph byte = some bitmap ∧ bitmap.length ≤ FONT_HEIGHT := by
  unfold glyph
  rw [if_pos (glyph_in_font byte)]
  exact ⟨_, rfl, length_take_le _ _⟩

section
variable (console : GopConsole)

include console

theorem drawGlyph_defined (byte : UInt8) :
    ∃ bitmap, console.drawGlyph byte = some (console.wrapped.place bitmap) ∧ bitmap.length ≤ FONT_HEIGHT := by
  obtain ⟨bitmap, found, high⟩ := glyph_defined byte
  refine ⟨bitmap, ?_, high⟩
  unfold GopConsole.drawGlyph
  rw [found]
  rfl

omit console in
theorem drawBlanks_defined (count : Nat) (console : GopConsole) :
    (GopConsole.drawBlanks count console).isSome := by
  induction count generalizing console with
  | zero => rfl
  | succ count ih =>
    obtain ⟨bitmap, drawn, -⟩ := drawGlyph_defined console 0x20
    rw [GopConsole.drawBlanks, drawn]
    exact ih _

theorem writeByte_defined (byte : UInt8) : (console.writeByte byte).isSome := by
  obtain ⟨bitmap, drawn, -⟩ := drawGlyph_defined console byte
  obtain ⟨questionMark, unknown, -⟩ := drawGlyph_defined console 0x3f
  unfold GopConsole.writeByte
  rw [drawn, unknown]
  by_cases tab : byte = 0x09
  · rw [tab]
    exact drawBlanks_defined 4 console
  · rw [if_neg tab]
    repeat' split
    all_goals rfl

theorem write_defined (bytes : List UInt8) : ∃ last, console.write bytes = some last := by
  induction bytes generalizing console with
  | nil => exact ⟨console, rfl⟩
  | cons byte rest ih =>
    obtain ⟨next, written⟩ := Option.isSome_iff_exists.mp (writeByte_defined console byte)
    obtain ⟨last, more⟩ := ih next
    refine ⟨last, ?_⟩
    rw [GopConsole.write, written]
    exact more

omit console in
theorem writeBytes_defined (screen : Option GopConsole) (bytes : List UInt8) :
    ∃ after, writeBytes screen bytes = some after := by
  cases screen with
  | none => exact ⟨none, rfl⟩
  | some console =>
    obtain ⟨last, written⟩ := write_defined console bytes
    refine ⟨some last, ?_⟩
    change (console.write bytes).map some = _
    rw [written]
    rfl

/-! The cursor and the pixels, byte by byte. -/

structure Fitted (info : FramebufferInfo) (console : GopConsole) : Prop where
  info_eq : console.info = info
  cols_eq : console.cols = info.width / CELL_WIDTH
  rows_eq : console.rows = info.height / CELL_HEIGHT
  stores_inside : ∀ store ∈ console.stores, store.Inside info

structure OnScreen (info : FramebufferInfo) (console : GopConsole) : Prop extends Fitted info console where
  cols_pos : 0 < console.cols
  cursor_col : console.cursorCol ≤ console.cols
  cursor_row : console.cursorRow < console.rows

omit console in
theorem offset_inside {info : FramebufferInfo} (wide : info.width ≤ info.stride) {pixel : Pixel} (inside : pixel.Inside info) :
    usize (usize (pixel.y * info.stride) + pixel.x) < info.stride * info.height := by
  have start := usize_le (pixel.y * info.stride)
  have across := inside.1
  calc usize (usize (pixel.y * info.stride) + pixel.x) ≤ usize (pixel.y * info.stride) + pixel.x := usize_le _
    _ < pixel.y * info.stride + info.stride := by omega
    _ = (pixel.y + 1) * info.stride := (Nat.succ_mul pixel.y info.stride).symm
    _ ≤ info.height * info.stride := Nat.mul_le_mul_right _ inside.2
    _ = info.stride * info.height := Nat.mul_comm _ _

/-! Pixels change nothing but the record of what is written. -/

theorem writePixel_frame (pixel : Pixel) :
    console.writePixel pixel = { console with stores := (console.writePixel pixel).stores } := by
  unfold GopConsole.writePixel
  split <;> rfl

theorem writePixels_frame (pixels : List Pixel) :
    console.writePixels pixels = { console with stores := (console.writePixels pixels).stores } := by
  induction pixels generalizing console with
  | nil => rfl
  | cons pixel rest ih =>
    calc console.writePixels (pixel :: rest) = (console.writePixel pixel).writePixels rest := rfl
      _ = { console.writePixel pixel with stores := ((console.writePixel pixel).writePixels rest).stores } := ih _
      _ = { console with stores := ((console.writePixel pixel).writePixels rest).stores } := by rw [writePixel_frame]

@[simp] theorem writePixels_cols (pixels : List Pixel) :
    (console.writePixels pixels).cols = console.cols := by rw [writePixels_frame]

@[simp] theorem writePixels_rows (pixels : List Pixel) :
    (console.writePixels pixels).rows = console.rows := by rw [writePixels_frame]

@[simp] theorem writePixels_cursorCol (pixels : List Pixel) :
    (console.writePixels pixels).cursorCol = console.cursorCol := by rw [writePixels_frame]

@[simp] theorem writePixels_cursorRow (pixels : List Pixel) :
    (console.writePixels pixels).cursorRow = console.cursorRow := by rw [writePixels_frame]

end

theorem Fitted.moved {info : FramebufferInfo} {console : GopConsole} (fitted : Fitted info console) (col row : Nat) :
    Fitted info { console with cursorCol := col, cursorRow := row } :=
  { fitted with }

section Run
variable {info : FramebufferInfo} (wide : info.width ≤ info.stride) {console : GopConsole}

include wide

theorem Fitted.writePixel (fitted : Fitted info console) {pixel : Pixel} (inside : pixel.Inside info) :
    Fitted info (console.writePixel pixel) := by
  unfold GopConsole.writePixel
  split
  · exact fitted
  · refine { fitted with stores_inside := ?_ }
    intro store member
    rcases mem_append.mp member with old | new
    · exact fitted.stores_inside store old
    · rw [mem_singleton.mp new, fitted.info_eq]
      exact ⟨inside.1, inside.2, offset_inside wide inside⟩

theorem Fitted.writePixels (fitted : Fitted info console) {pixels : List Pixel}
    (inside : ∀ pixel ∈ pixels, pixel.Inside info) : Fitted info (console.writePixels pixels) := by
  induction pixels generalizing console with
  | nil => exact fitted
  | cons pixel rest ih =>
    apply ih (fitted.writePixel wide (inside pixel mem_cons_self))
    intro other member
    exact inside other (mem_cons_of_mem _ member)

theorem Fitted.clearScreen (fitted : Fitted info console) : Fitted info console.clearScreen := by
  apply fitted.writePixels wide
  rw [fitted.info_eq]
  exact screenPixels_inside

section
variable (now : OnScreen info console)

include now

theorem OnScreen.newline :
    OnScreen info console.newline ∧ console.newline.cursorCol < console.newline.cols := by
  have moved := now.toFitted.moved 0 (usize (console.cursorRow + 1))
  have some_row : 0 < console.rows := Nat.zero_lt_of_lt now.cursor_row
  unfold GopConsole.newline
  dsimp only
  split
  · unfold GopConsole.scroll
    refine ⟨⟨(moved.clearScreen wide).moved _ 0, ?_, ?_, ?_⟩, ?_⟩
    all_goals simp only [GopConsole.clearScreen, writePixels_cols, writePixels_rows, writePixels_cursorCol]
    · exact now.cols_pos
    · exact Nat.zero_le _
    · exact some_row
    · exact now.cols_pos
  · exact ⟨⟨moved, now.cols_pos, Nat.zero_le _, Nat.lt_of_not_le ‹_›⟩, now.cols_pos⟩

theorem OnScreen.backspace : OnScreen info console.backspace := by
  have column := now.cursor_col
  unfold GopConsole.backspace
  split
  · have inside : ∀ pixel ∈ GopConsole.cellPixels (console.cursorCol - 1) console.cursorRow, pixel.Inside info :=
      cellPixels_inside (by rw [← now.cols_eq]; omega) (by rw [← now.rows_eq]; exact now.cursor_row)
    have moved := now.toFitted.moved (console.cursorCol - 1) console.cursorRow
    apply OnScreen.mk (moved.writePixels wide inside)
    all_goals simp only [writePixels_cols, writePixels_rows, writePixels_cursorCol, writePixels_cursorRow]
    · exact now.cols_pos
    · omega
    · exact now.cursor_row
  · exact now

theorem OnScreen.wrapped :
    OnScreen info console.wrapped ∧ console.wrapped.cursorCol < console.wrapped.cols := by
  unfold GopConsole.wrapped
  split
  · exact now.newline wide
  · exact ⟨now, Nat.lt_of_not_le ‹_›⟩

theorem OnScreen.place (room : console.cursorCol < console.cols) {bitmap : List UInt8}
    (high : bitmap.length ≤ FONT_HEIGHT) : OnScreen info (console.place bitmap) := by
  have column : console.cursorCol < info.width / CELL_WIDTH := now.cols_eq ▸ room
  have line : console.cursorRow < info.height / CELL_HEIGHT := now.rows_eq ▸ now.cursor_row
  have inside := glyphPixels_inside column line high
  have step := usize_le (console.cursorCol + 1)
  unfold GopConsole.place
  refine ⟨(now.toFitted.writePixels wide inside).moved _ _, ?_, ?_, ?_⟩
  all_goals simp only [writePixels_cols, writePixels_rows, writePixels_cursorCol, writePixels_cursorRow]
  · exact now.cols_pos
  · omega
  · exact now.cursor_row

theorem OnScreen.drawGlyph (byte : UInt8) :
    ∃ next, console.drawGlyph byte = some next ∧ OnScreen info next := by
  obtain ⟨bitmap, drawn, high⟩ := drawGlyph_defined console byte
  obtain ⟨wrapped, room⟩ := now.wrapped wide
  exact ⟨console.wrapped.place bitmap, drawn, wrapped.place wide room high⟩

omit now in
theorem OnScreen.drawBlanks (count : Nat) (now : OnScreen info console) :
    ∃ next, GopConsole.drawBlanks count console = some next ∧ OnScreen info next := by
  induction count generalizing console with
  | zero => exact ⟨console, rfl, now⟩
  | succ count ih =>
    obtain ⟨first, drawn, still⟩ := now.drawGlyph wide 0x20
    obtain ⟨last, more, after⟩ := ih still
    refine ⟨last, ?_, after⟩
    rw [GopConsole.drawBlanks, drawn]
    exact more

theorem OnScreen.writeByte (byte : UInt8) :
    ∃ next, console.writeByte byte = some next ∧ OnScreen info next := by
  unfold GopConsole.writeByte
  split
  · refine ⟨_, rfl, (now.toFitted.clearScreen wide).moved 0 0, ?_, ?_, ?_⟩
    all_goals simp only [GopConsole.clearScreen, writePixels_cols, writePixels_rows]
    · exact now.cols_pos
    · exact Nat.zero_le _
    · exact Nat.zero_lt_of_lt now.cursor_row
  split
  · exact ⟨_, rfl, (now.newline wide).1⟩
  split
  · exact ⟨_, rfl, now.toFitted.moved 0 _, now.cols_pos, Nat.zero_le _, now.cursor_row⟩
  split
  · exact ⟨_, rfl, now.backspace wide⟩
  split
  · exact now.drawBlanks wide 4
  split
  · exact now.drawGlyph wide byte
  · exact now.drawGlyph wide 0x3f

theorem OnScreen.write (bytes : List UInt8) : ∃ last, console.write bytes = some last ∧ OnScreen info last := by
  induction bytes generalizing console with
  | nil => exact ⟨console, rfl, now⟩
  | cons byte rest ih =>
    obtain ⟨first, written, still⟩ := now.writeByte wide byte
    obtain ⟨last, more, after⟩ := ih still
    refine ⟨last, ?_, after⟩
    rw [GopConsole.write, written]
    exact more

end

theorem OnScreen.of_new (accepted : GopConsole.new (some info) = some console) : OnScreen info console := by
  unfold GopConsole.new at accepted
  dsimp only at accepted
  split at accepted
  · cases accepted
  · rename_i large
    rw [not_or, Nat.not_lt, Nat.not_lt] at large
    split at accepted
    · cases accepted
    · cases accepted
      apply OnScreen.mk (Fitted.clearScreen wide ⟨rfl, rfl, rfl, by simp⟩)
      all_goals simp only [GopConsole.clearScreen, writePixels_cols, writePixels_rows, writePixels_cursorCol,
        writePixels_cursorRow]
      · exact Nat.div_pos large.1 (by decide)
      · exact Nat.zero_le _
      · exact Nat.div_pos large.2 (by decide)

end Run

/-- No stream of bytes makes the console write outside of the screen. -/
theorem console_stays_on_screen {info : FramebufferInfo} (wide : info.width ≤ info.stride) {console : GopConsole}
    (accepted : GopConsole.new (some info) = some console) (bytes : List UInt8) :
    (∀ byte, (glyphIndex byte + 1) * FONT_HEIGHT ≤ FONT.length) ∧
      ∃ last, console.write bytes = some last ∧
        last.rows = info.height / CELL_HEIGHT ∧ last.cols = info.width / CELL_WIDTH ∧
        last.cursorRow < last.rows ∧ last.cursorCol ≤ last.cols ∧
        ∀ store ∈ last.stores, store.x < info.width ∧ store.y < info.height ∧ store.offset < info.stride * info.height := by
  obtain ⟨last, written, after⟩ := (OnScreen.of_new wide accepted).write wide bytes
  exact ⟨glyph_in_font, last, written, after.rows_eq, after.cols_eq, after.cursor_row, after.cursor_col, after.stores_inside⟩

def smallest : FramebufferInfo := ⟨0x80000000, 17, 32, 20, .bgr⟩

theorem smallest_stays_on_screen :
    smallest.width ≤ smallest.stride ∧ ∃ console, GopConsole.new (some smallest) = some console ∧
      ∃ last, console.write [0x09, 0x41, 0x08, 0xff] = some last ∧ last.cursorRow < last.rows ∧ last.cursorCol ≤ last.cols := by
  have accepted : GopConsole.new (some smallest) = some (GopConsole.clearScreen ⟨smallest, 0, 0, 1, 1, []⟩) := rfl
  obtain ⟨-, last, written, -, -, row, col, -⟩ :=
    console_stays_on_screen (by decide) accepted [0x09, 0x41, 0x08, 0xff]
  exact ⟨by decide, _, accepted, last, written, row, col⟩

end HermitLocal.Console.Framebuffer
