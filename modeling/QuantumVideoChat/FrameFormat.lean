/-
A video frame from the camera to the canvas of the peer (`middleware/video.py`,
`server/socket_api.py`, `middleware/events.py`, `website/client/static/app.js`).

The sender encodes the picture as JPEG and base64; the relays hand the text on; the browser
reads nested lists of numbers, and takes anything else for the colour components themselves.

* `length_b64encode` — four characters for every three bytes begun;
* `shows_rows` — the browser shows a picture sent as rows of BGR pixels;
* `relay_videoPayload` — what the browser of the peer gets is the text the sender made;
* `frame_never_shown` — and no picture ever comes out of it.
-/
import QuantumVideoChat.Numerics
import QuantumVideoChat.SocketAPI

namespace Base64

/-! ### base64.b64encode -/

/-- The character for a value below 64. -/
def digit (n : ℕ) : Char :=
  if n < 26 then Char.ofNat (n + 65)
  else if n < 52 then Char.ofNat (n + 71)
  else if n < 62 then Char.ofNat (n - 4)
  else if n = 62 then '+'
  else '/'

/-- Three bytes make four characters; a shorter end is padded. -/
def b64encode : List UInt8 → List Char
  | [] => []
  | [a] => [digit (a.toNat / 4), digit (a.toNat % 4 * 16), '=', '=']
  | [a, b] =>
    [digit (a.toNat / 4), digit (a.toNat % 4 * 16 + b.toNat / 16), digit (b.toNat % 16 * 4), '=']
  | a :: b :: c :: rest =>
    [digit (a.toNat / 4), digit (a.toNat % 4 * 16 + b.toNat / 16),
      digit (b.toNat % 16 * 4 + c.toNat / 64), digit (c.toNat % 64)] ++ b64encode rest

theorem length_b64encode (bytes : List UInt8) :
    (b64encode bytes).length = 4 * ((bytes.length + 2) / 3) := by
  induction bytes using b64encode.induct with
  | case1 => rfl
  | case2 a => simp [b64encode]
  | case3 a b => simp [b64encode]
  | case4 a b c rest ih =>
    rw [b64encode, List.length_append, ih]
    simp only [List.length_cons, List.length_nil]
    omega

end Base64

namespace FrameFormat

open Base64

/-! ### Pictures -/

/-- One pixel as OpenCV stores it. -/
structure Pixel where
  blue : UInt8
  green : UInt8
  red : UInt8
  deriving DecidableEq

/-- A picture of `h` rows and `w` columns. -/
structure Frame (h w : ℕ) where
  pixel : Fin h → Fin w → Pixel

namespace Frame

variable {h w : ℕ}

/-- `frame.tolist()`. -/
def rows (frame : Frame h w) : List (List (List ℤ)) :=
  List.ofFn fun i => List.ofFn fun j =>
    [((frame.pixel i j).blue.toNat : ℤ), (frame.pixel i j).green.toNat,
      (frame.pixel i j).red.toNat]

/-- The colour components of the picture on a canvas: red, green, blue and opaque. -/
def rgba (frame : Frame h w) : List UInt8 :=
  (List.ofFn fun i => (List.ofFn fun j =>
    [(frame.pixel i j).red, (frame.pixel i j).green, (frame.pixel i j).blue, 255]).flatten).flatten

theorem length_rgba (frame : Frame h w) : frame.rgba.length = 4 * (w * h) := by
  simp [rgba, List.length_flatten, List.map_ofFn, Function.comp_def]
  ring

/-- A picture with a pixel has an opaque one. -/
theorem mem_rgba (frame : Frame h w) (hh : 0 < h) (hw : 0 < w) : 255 ∈ frame.rgba := by
  refine List.mem_flatten.mpr ⟨_, List.mem_ofFn.mpr ⟨⟨0, hh⟩, rfl⟩, ?_⟩
  exact List.mem_flatten.mpr ⟨_, List.mem_ofFn.mpr ⟨⟨0, hw⟩, rfl⟩, by simp⟩

end Frame

/-! ### What travels -/

/-- The values of a `frame` event: text, rows of pixels, a flat list, or a number. -/
inductive FrameValue
  | text (s : String)
  | pixels (rows : List (List (List ℤ)))
  | flat (values : List ℤ)
  | num (n : ℤ)
  deriving DecidableEq

/-- The event `frame` as a browser gets it. -/
structure BrowserFrame where
  frame : FrameValue
  width : Option FrameValue
  height : Option FrameValue
  self : Bool
  deriving DecidableEq

/-- The `frame` payload of `VideoThread._run`; `buffer` is the JPEG encoding of the frame. -/
structure VideoPayload where
  frame : FrameValue
  width : FrameValue
  height : FrameValue

def videoPayload (width height : ℕ) (buffer : List UInt8) : VideoPayload where
  frame := .text (.ofList (b64encode buffer))
  width := .num width
  height := .num height

/-- `_server_frame`: the echo of an own frame is ignored.  The server always sends `width` and
`height`, so the defaults of `get` are not used. -/
def serverFrame : SocketPayload FrameValue → Option BrowserFrame
  | .frame (some frame) width height _ =>
    some { frame := frame, width := width, height := height, self := false }
  | _ => none

/-- What the peer's browser gets for a payload emitted on socket `sid`. -/
def relay (api : SocketAPI) (sid : String) (p : VideoPayload) : List BrowserFrame :=
  (api.onFrame sid (some p.frame) (some p.width) (some p.height)).filterMap fun e =>
    serverFrame e.payload

/-! ### The browser -/

/-- The conversion of `Uint8ClampedArray` for a number. -/
def clamp (n : ℤ) : UInt8 := UInt8.ofNat (min 255 n.toNat)

/-- The same for a string of one character: `NaN` is stored as 0. -/
def clampChar (c : Char) : UInt8 := if c.isDigit then UInt8.ofNat (c.toNat - 48) else 0

/-- `toRGBA`. -/
def toRGBA : FrameValue → List UInt8
  | .pixels rows =>
    match rows with
    | (_ :: _) :: _ =>
      rows.flatMap fun row => row.flatMap fun px =>
        [clamp (px.getD 2 0), clamp (px.getD 1 0), clamp (px.getD 0 0), 255]
    | _ => rows.flatten.flatten.map clamp
  | .flat values => values.map clamp
  -- a string has no `flat`, so its characters are taken one by one
  | .text s => s.toList.map clampChar
  | .num _ => []

structure ImageData where
  data : List UInt8
  width : ℕ
  height : ℕ
  deriving DecidableEq

/-- `new ImageData(data, sw, sh)`; `none` is an exception. -/
def newImageData (data : List UInt8) (sw sh : ℕ) : Option ImageData :=
  if data.length = 0 ∨ data.length % 4 ≠ 0 then none
  else if sw = 0 ∨ data.length / 4 % sw ≠ 0 then none
  else if data.length / 4 / sw ≠ sh then none
  else some ⟨data, sw, sh⟩

/-- The image `drawOnCanvas` puts on the canvas. -/
def drawOnCanvas (data : BrowserFrame) : Option ImageData :=
  match data.width, data.height with
  | some (.num w), some (.num h) => newImageData (toRGBA data.frame) w.toNat h.toNat
  | _, _ => none

/-! ### What the browser reads -/

variable {h w : ℕ}

theorem clamp_toNat (v : UInt8) : clamp v.toNat = v := by
  have hlt := v.toNat_lt
  rw [clamp, Int.toNat_natCast, Nat.min_eq_right (by omega), UInt8.ofNat_toNat]

/-- Lists nested to the depth of a pixel are read pixel by pixel. -/
theorem toRGBA_nested {rows : List (List (List ℤ))} (hrow : ∃ row ∈ rows.head?, row ≠ []) :
    toRGBA (.pixels rows) = rows.flatMap fun row => row.flatMap fun px =>
      [clamp (px.getD 2 0), clamp (px.getD 1 0), clamp (px.getD 0 0), 255] := by
  obtain ⟨row, hhead, hne⟩ := hrow
  rcases rows with _ | ⟨_ | ⟨px, row'⟩, rows⟩
  · exact absurd hhead (by simp)
  · exact absurd (Option.some_inj.mp hhead) hne.symm
  · rfl

/-- Rows of BGR pixels are read as the picture. -/
theorem toRGBA_rows (frame : Frame h w) (hh : 0 < h) (hw : 0 < w) :
    toRGBA (.pixels frame.rows) = frame.rgba := by
  obtain ⟨h, rfl⟩ : ∃ k, h = k + 1 := ⟨h - 1, by omega⟩
  have hrow : ∃ row ∈ frame.rows.head?, row ≠ [] := by
    rw [Frame.rows, List.ofFn_succ]
    exact ⟨_, rfl, by simpa using hw.ne'⟩
  rw [toRGBA_nested hrow, Frame.rows, Frame.rgba, List.flatMap_def, List.map_ofFn]
  refine congrArg List.flatten (congrArg List.ofFn (funext fun i => ?_))
  rw [Function.comp_apply, List.flatMap_def, List.map_ofFn]
  refine congrArg List.flatten (congrArg List.ofFn (funext fun j => ?_))
  simp [clamp_toNat]

/-- A character is worth nine at most. -/
theorem clampChar_le (c : Char) : (clampChar c).toNat ≤ 9 := by
  rw [clampChar]
  split_ifs with hdigit
  · simp only [Char.isDigit, Bool.and_eq_true, decide_eq_true_eq, ge_iff_le,
      UInt32.le_iff_toNat_le] at hdigit
    change 48 ≤ c.toNat ∧ c.toNat ≤ 57 at hdigit
    rw [UInt8.toNat_ofNat']
    omega
  · exact Nat.zero_le 9

/-- From text come as many components as it has characters, none of them opaque. -/
theorem toRGBA_text (s : String) :
    (toRGBA (.text s)).length = s.toList.length ∧ 255 ∉ toRGBA (.text s) := by
  refine ⟨List.length_map _, fun hmem => ?_⟩
  obtain ⟨c, -, hc⟩ := List.mem_map.mp hmem
  have hle := clampChar_le c
  rw [hc] at hle
  exact absurd hle (by decide)

/-- The picture the browser is to draw has as many components as it has room for. -/
theorem newImageData_rgba (frame : Frame h w) (hh : 0 < h) (hw : 0 < w) :
    newImageData frame.rgba w h = some ⟨frame.rgba, w, h⟩ := by
  have hlen := frame.length_rgba
  have hpos : 0 < w * h := Nat.mul_pos hw hh
  rw [newImageData, if_neg (by omega), hlen, Nat.mul_div_cancel_left _ (by decide),
    if_neg (by simp [hw.ne']), Nat.mul_div_cancel_left _ hw, if_neg (by simp)]

/-- What the relays do: the peer's browser gets the payload, if the sender's socket is in a
session, and otherwise nothing. -/
theorem relay_eq (api : SocketAPI) (sid : String) (p : VideoPayload) :
    relay api sid p
      = if sid ∈ api.sids then [⟨p.frame, some p.width, some p.height, false⟩] else [] := by
  rw [relay, SocketAPI.onFrame]
  cases hsid : api.sids.lookup sid with
  | none => rw [if_neg (Finmap.lookup_eq_none.mp hsid), List.filterMap_nil]
  | some info => rw [if_pos (Finmap.mem_of_lookup_eq_some hsid)]; rfl

/-- The browser draws some picture of this size. -/
def Shows (h w : ℕ) (data : BrowserFrame) : Prop :=
  ∃ decoded : Frame h w, toRGBA data.frame = decoded.rgba ∧
    drawOnCanvas data = some ⟨decoded.rgba, w, h⟩

/-- Sent as rows of pixels, with its numbers, a picture is shown. -/
theorem shows_rows (frame : Frame h w) (hh : 0 < h) (hw : 0 < w) :
    Shows h w ⟨.pixels frame.rows, some (.num w), some (.num h), false⟩ := by
  refine ⟨frame, toRGBA_rows frame hh hw, ?_⟩
  show newImageData (toRGBA (.pixels frame.rows)) w h = _
  rw [toRGBA_rows frame hh hw, newImageData_rgba frame hh hw]

/-- **No frame is ever shown.**  Whatever JPEG makes of a frame of whatever size, what the
relays bring to the peer's browser is the base64 text, and `toRGBA` reads from it one
component a character: four for every three bytes begun, and never those of a picture. -/
theorem frame_never_shown (h w : ℕ) (jpeg : Frame h w → List UInt8) (frame : Frame h w)
    (api : SocketAPI) (sid : String) {data : BrowserFrame}
    (hrelay : data ∈ relay api sid (videoPayload w h (jpeg frame))) :
    data = ⟨.text (.ofList (b64encode (jpeg frame))), some (.num w), some (.num h), false⟩ ∧
      (toRGBA data.frame).length = 4 * (((jpeg frame).length + 2) / 3) ∧
      ¬ Shows h w data := by
  rw [relay_eq] at hrelay
  split_ifs at hrelay with hsid
  · obtain rfl := List.mem_singleton.mp hrelay
    obtain ⟨hlen, halpha⟩ := toRGBA_text (.ofList (b64encode (jpeg frame)))
    refine ⟨rfl, ?_, ?_⟩
    · rw [String.toList_ofList, length_b64encode] at hlen
      exact hlen
    · rintro ⟨decoded, hrgba, hdraw⟩
      change toRGBA (.text (.ofList (b64encode (jpeg frame)))) = decoded.rgba at hrgba
      by_cases hpixels : 0 < h ∧ 0 < w
      · -- a pixel would be opaque
        rw [hrgba] at halpha
        exact halpha (decoded.mem_rgba hpixels.1 hpixels.2)
      · -- and without a pixel there is no image
        have hzero : decoded.rgba.length = 0 := by
          rw [decoded.length_rgba]
          rcases not_and_or.mp hpixels with hh | hw
          · rw [Nat.eq_zero_of_not_pos hh, Nat.mul_zero]
          · rw [Nat.eq_zero_of_not_pos hw, Nat.zero_mul]
        rw [drawOnCanvas] at hdraw
        dsimp only at hdraw
        change newImageData (toRGBA (.text (.ofList (b64encode (jpeg frame))))) _ _ = _ at hdraw
        rw [hrgba, newImageData, if_pos (.inl hzero)] at hdraw
        exact absurd hdraw (by simp)
  · exact absurd hrelay List.not_mem_nil

/-- A session with one socket. -/
def oneSocket : SocketAPI :=
  ({} : SocketAPI).bind "a" ("u", "10000")

/-- One black pixel, and the first bytes of a JPEG file. -/
def blackPixel : Frame 1 1 := ⟨fun _ _ => ⟨0, 0, 0⟩⟩

def jpegHead : List UInt8 := [0xFF, 0xD8, 0xFF]

/-- What the browser of the peer gets for it. -/
def relayedPixel : BrowserFrame := ⟨.text "/9j/", some (.num 1), some (.num 1), false⟩

theorem frame_never_shown_black_pixel :
    relayedPixel
        = ⟨.text (.ofList (b64encode jpegHead)), some (.num (1 : ℕ)), some (.num (1 : ℕ)), false⟩ ∧
      (toRGBA relayedPixel.frame).length = 4 * ((jpegHead.length + 2) / 3) ∧
      ¬ Shows 1 1 relayedPixel :=
  frame_never_shown 1 1 (fun _ => jpegHead) blackPixel oneSocket "a" (by decide +kernel)

/-- The four components of the pixel come out as 0, 9, 0, 0. -/
theorem black_pixel_not_shown :
    ¬ ∀ (h w : ℕ) (jpeg : Frame h w → List UInt8) (frame : Frame h w) (api : SocketAPI)
        (sid : String) (data : BrowserFrame),
      data ∈ relay api sid (videoPayload w h (jpeg frame)) → Shows h w data := by
  intro hall
  obtain ⟨decoded, hrgba, -⟩ := hall 1 1 (fun _ => jpegHead) blackPixel oneSocket "a" relayedPixel
    (by decide +kernel)
  have hread : toRGBA relayedPixel.frame = [0, 9, 0, 0] := by decide +kernel
  have hopaque := decoded.mem_rgba Nat.zero_lt_one Nat.zero_lt_one
  rw [← hrgba, hread] at hopaque
  exact absurd hopaque (by decide)

end FrameFormat
