import StyleBundler.Edit
import StyleBundler.Json.Quoted
import StyleBundler.SourceMap.Vlq

/-!
Source maps, version 3. A mapping ties a position of the edited text to the one it
comes from; there is one at the start of every patch and one at the start of every
further line of a copied patch. Columns count UTF-16 units. `encode` writes mappings
as differences, a semicolon before every further line and a comma between mappings of
one line.
-/

namespace StyleBundler.SourceMap

/-- A line and a column in UTF-16 units, both from zero. -/
structure Position where
  line : Nat
  column : Nat
deriving DecidableEq, Repr, Inhabited

structure Mapping where
  generated : Position
  origin : Position
deriving DecidableEq, Repr, Inhabited

/-- The number of UTF-16 units of a character. -/
def units (c : Char) : Nat := if c.toNat < 0x10000 then 1 else 2

def Position.advance (p : Position) (c : Char) : Position :=
  if c = '\n' then ⟨p.line + 1, 0⟩ else ⟨p.line, p.column + units c⟩

/-- A place in a text: its byte offset, its position, and the text from there on. -/
structure Cursor where
  offset : Nat
  position : Position
  rest : List Char
deriving DecidableEq, Repr

namespace Cursor

def start (text : List Char) : Cursor := ⟨0, ⟨0, 0⟩, text⟩

/-- The last character boundary up to the byte offset `target`. -/
def ofSearch (target offset : Nat) (p : Position) : List Char → Cursor
  | [] => ⟨offset, p, []⟩
  | c :: cs =>
      if offset + c.utf8Size ≤ target then
        ofSearch target (offset + c.utf8Size) (p.advance c) cs
      else ⟨offset, p, c :: cs⟩

/-- Goes on to a byte offset. -/
def seek (c : Cursor) (target : Nat) : Cursor := ofSearch target c.offset c.position c.rest

theorem seek_seek (c : Cursor) {m n : Nat} (h : m ≤ n) : (c.seek m).seek n = c.seek n := by
  obtain ⟨offset, p, rest⟩ := c
  simp only [seek]
  induction rest generalizing offset p with
  | nil => rfl
  | cons c cs ih =>
      by_cases hm : offset + c.utf8Size ≤ m
      · have hn : offset + c.utf8Size ≤ n := Nat.le_trans hm h
        simp only [ofSearch, hm, hn, if_true]
        exact ih _ _
      · simp only [ofSearch, hm, if_false]

/-- The positions of byte offsets in order, in one pass over the text. -/
def positions (c : Cursor) : List Nat → List Position
  | [] => []
  | n :: ns => (c.seek n).position :: (c.seek n).positions ns

end Cursor

def positionAt (text : List Char) (offset : Nat) : Position :=
  ((Cursor.start text).seek offset).position

theorem Cursor.positions_eq_map (c : Cursor) {ns : List Nat} (h : ns.Pairwise (· ≤ ·)) :
    c.positions ns = ns.map fun n => (c.seek n).position := by
  induction ns generalizing c with
  | nil => rfl
  | cons n ns ih =>
      rw [List.pairwise_cons] at h
      simp only [positions, List.map_cons, ih (c.seek n) h.2]
      congr 1
      exact List.map_congr_left fun m hm => by rw [seek_seek c (h.1 m hm)]

theorem positions_start (text : List Char) {ns : List Nat} (h : ns.Pairwise (· ≤ ·)) :
    (Cursor.start text).positions ns = ns.map (positionAt text) :=
  Cursor.positions_eq_map _ h

/-- The starts of the further lines of a text that starts at `offset`; a line break at
the end starts none. -/
def lineStarts (offset : Nat) : List Char → List Nat
  | [] => []
  | [_] => []
  | c :: d :: cs =>
      let offset := offset + c.utf8Size
      if c = '\n' then offset :: lineStarts offset (d :: cs) else lineStarts offset (d :: cs)

/-- The offsets of a patch that get a mapping, with the offsets they come from. -/
def patchPoints (offset : Nat) (p : Patch) : List (Nat × Nat) :=
  (offset, p.origin) ::
    if p.copied then (lineStarts offset p.text).map fun n => (n, p.origin + (n - offset)) else []

/-- The offsets of a list of patches, the first of which starts at `offset`. -/
def points (offset : Nat) : List Patch → List (Nat × Nat)
  | [] => []
  | p :: ps => patchPoints offset p ++ points (offset + Text.byteLength p.text) ps

def mappings (source : List Char) (r : EditedText) : List Mapping :=
  let found := points (Text.byteLength r.front) r.patches
  List.zipWith Mapping.mk ((Cursor.start r.code).positions (found.map (·.1)))
    ((Cursor.start source).positions (found.map (·.2)))

/-- Writes mappings after `last`; `first` says that its line has none yet. -/
def encodeFrom (last : Mapping) (first : Bool) : List Mapping → List Char
  | [] => []
  | m :: ms =>
      let newLine := last.generated.line < m.generated.line
      let start := if newLine then 0 else last.generated.column
      List.replicate (m.generated.line - last.generated.line) ';' ++
        (if first || newLine then [] else [',']) ++
        Vlq.encode (m.generated.column - start) ++ Vlq.encode 0 ++
        Vlq.encode (m.origin.line - last.origin.line) ++
        Vlq.encode (m.origin.column - last.origin.column) ++
        encodeFrom m false ms

def encode (ms : List Mapping) : List Char := encodeFrom ⟨⟨0, 0⟩, ⟨0, 0⟩⟩ true ms

/-- The JSON text of the map of one source. -/
def json (name source : String) (ms : List Mapping) : String :=
  "\x7b\"version\":3,\"sources\":[" ++ Json.quoted name ++ "],\"sourcesContent\":[" ++
    Json.quoted source ++ "],\"names\":[],\"mappings\":" ++
    Json.quoted (String.ofList (encode ms)) ++ "\x7d"

end StyleBundler.SourceMap
