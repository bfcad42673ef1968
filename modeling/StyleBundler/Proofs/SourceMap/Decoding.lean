import StyleBundler.Proofs.SourceMap.Vlq
import StyleBundler.SourceMap.Mapping

/-!
Mappings read back by the rules of the format: a semicolon starts a line, commas separate the
segments of one, and a segment is four numbers, each the difference to the one before. The column
in the generated text counts from zero on every line, the other three go on over lines. Anything
else is refused. What is written for mappings in the order of their lines reads back as them, of
the one source there is (`decode_encode`).
-/

namespace StyleBundler.SourceMap

/-- A mapping, and which source it leads to. -/
structure Segment extends Mapping where
  source : Nat
deriving DecidableEq, Repr

namespace Segment

/-- What the first segment counts from. -/
def zero : Segment := ⟨⟨⟨0, 0⟩, ⟨0, 0⟩⟩, 0⟩

/-- What the next segment counts from once a line ends. -/
def newLine (last : Segment) : Segment :=
  { last with generated := ⟨last.generated.line + 1, 0⟩ }

/-- A number moved by a difference, if that leads to one. -/
def shift? (n : Nat) (difference : Int) : Option Nat := (n + difference).toNat?

/-- The segment at the start of a text, counted from the last one, and what follows it. -/
def read? (last : Segment) (cs : List Char) : Option (Segment × List Char) := do
  let (column, cs) ← Vlq.decode cs
  let (source, cs) ← Vlq.decode cs
  let (originLine, cs) ← Vlq.decode cs
  let (originColumn, cs) ← Vlq.decode cs
  let column ← shift? last.generated.column column
  let source ← shift? last.source source
  let originLine ← shift? last.origin.line originLine
  let originColumn ← shift? last.origin.column originColumn
  some (⟨⟨⟨last.generated.line, column⟩, ⟨originLine, originColumn⟩⟩, source⟩, cs)

theorem read?_shortens {last m : Segment} {cs rest : List Char}
    (h : last.read? cs = some (m, rest)) : rest.length < cs.length := by
  simp only [read?, Option.bind_eq_bind, Option.bind_eq_some_iff, Prod.exists,
    Option.some.injEq, Prod.mk.injEq] at h
  obtain ⟨_, _, h1, _, _, h2, _, _, h3, _, _, h4, -, -, -, -, -, -, -, -, -, rfl⟩ := h
  have := Vlq.decode_shortens h1
  have := Vlq.decode_shortens h2
  have := Vlq.decode_shortens h3
  have := Vlq.decode_shortens h4
  omega

theorem shift?_sub (n m : Nat) : shift? n (m - n) = some m := by
  rw [shift?]
  have hsum : (n : Int) + (m - n) = m := by omega
  rw [hsum]
  rfl

/-- The differences from one mapping to the next, as they are written. -/
def written (last m : Mapping) : List Char :=
  Vlq.encode (m.generated.column - last.generated.column) ++ Vlq.encode 0 ++
    Vlq.encode (m.origin.line - last.origin.line) ++
    Vlq.encode (m.origin.column - last.origin.column)

theorem read?_written {last m : Mapping} (hline : last.generated.line = m.generated.line)
    (source : Nat) (rest : List Char) :
    (Segment.mk last source).read? (written last m ++ rest) = some (⟨m, source⟩, rest) := by
  have hsource : shift? source 0 = some source := by simpa using shift?_sub source source
  simp only [read?, written, List.append_assoc, Vlq.decode_encode, Option.bind_eq_bind,
    Option.bind_some, shift?_sub, hsource, hline]

theorem exists_written (last m : Mapping) : ∃ c cs, c ≠ ';' ∧ written last m = c :: cs := by
  obtain ⟨n, cs, hn, hdigits⟩ :=
    Vlq.exists_digit_of_encode (m.generated.column - last.generated.column)
  exact ⟨Vlq.digit n, _, Vlq.digit_ne_semicolon hn, by rw [written, hdigits]; rfl⟩

end Segment

/-- Reads on behind `last`; `first` says that its line has no segment yet. -/
def decodeFrom (last : Segment) (first : Bool) : List Char → Option (List Segment)
  | [] => some []
  | c :: cs =>
      if c = ';' then decodeFrom last.newLine true cs
      else
        let start := if first then c :: cs else cs
        if first || c = ',' then
          match _h : last.read? start with
          | none => none
          | some (m, rest) => (decodeFrom m false rest).map (m :: ·)
        else none
termination_by cs => cs.length
decreasing_by
  · exact Nat.lt_succ_self _
  · have hle : start.length ≤ (c :: cs).length := by
      simp only [start]
      split <;> simp
    have := Segment.read?_shortens _h
    omega

def decode (cs : List Char) : Option (List Segment) := decodeFrom .zero true cs

section RoundTrip

variable {last m : Mapping} {source : Nat}

theorem decodeFrom_semicolons (last : Segment) (first : Bool) (n : Nat) (cs : List Char) :
    decodeFrom last first (List.replicate (n + 1) ';' ++ cs) =
      decodeFrom { last with generated := ⟨last.generated.line + (n + 1), 0⟩ } true cs := by
  induction n generalizing last first with
  | zero =>
      rw [decodeFrom.eq_def]
      rfl
  | succ n ih =>
      rw [List.replicate_succ, List.cons_append, decodeFrom, if_pos rfl, ih]
      simp only [Segment.newLine, Nat.add_assoc, Nat.add_comm 1]

theorem decodeFrom_of_read? {last m : Segment} {first : Bool} {c : Char} {cs rest : List Char}
    (hc : c ≠ ';') (hseparator : first = true ∨ c = ',')
    (hread : last.read? (if first then c :: cs else cs) = some (m, rest)) :
    decodeFrom last first (c :: cs) = (decodeFrom m false rest).map (m :: ·) := by
  rw [decodeFrom, if_neg hc, if_pos (by simpa using hseparator)]
  split
  · next hnone =>
      rw [hread] at hnone
      cases hnone
  · next hsome =>
      rw [hread] at hsome
      cases hsome
      rfl

/-- One segment reads back, with a comma in front unless it is the first of its line. -/
theorem decodeFrom_written (hline : last.generated.line = m.generated.line) (first : Bool)
    (rest : List Char) :
    decodeFrom ⟨last, source⟩ first
        ((if first then [] else [',']) ++ (Segment.written last m ++ rest)) =
      (decodeFrom ⟨m, source⟩ false rest).map (⟨m, source⟩ :: ·) := by
  have hread := Segment.read?_written hline source rest
  cases first with
  | true =>
      obtain ⟨c, cs, hc, hwritten⟩ := Segment.exists_written last m
      rw [hwritten] at hread ⊢
      exact decodeFrom_of_read? hc (.inl rfl) hread
  | false => exact decodeFrom_of_read? (by decide) (.inr rfl) hread

theorem encodeFrom_cons (last m : Mapping) (first : Bool) (ms : List Mapping) :
    encodeFrom last first (m :: ms) =
      if last.generated.line < m.generated.line then
        List.replicate (m.generated.line - last.generated.line) ';' ++
          (Segment.written { last with generated := ⟨m.generated.line, 0⟩ } m ++
            encodeFrom m false ms)
      else List.replicate (m.generated.line - last.generated.line) ';' ++
        ((if first then [] else [',']) ++ (Segment.written last m ++ encodeFrom m false ms)) := by
  by_cases hlt : last.generated.line < m.generated.line <;>
    simp [encodeFrom, hlt, Segment.written]

/-- Mappings in the order of their lines read back, each of the same source. -/
theorem decodeFrom_encodeFrom {ms : List Mapping} (first : Bool)
    (hlines : (last :: ms).Pairwise fun m m' => m.generated.line ≤ m'.generated.line) :
    decodeFrom ⟨last, source⟩ first (encodeFrom last first ms) =
      some (ms.map fun m => ⟨m, source⟩) := by
  induction ms generalizing last first with
  | nil => rw [encodeFrom, decodeFrom]; rfl
  | cons m ms ih =>
      obtain ⟨hlast, hlines⟩ := List.pairwise_cons.mp hlines
      have hle := hlast m List.mem_cons_self
      rw [encodeFrom_cons]
      split
      · next hlt =>
          obtain ⟨n, hn⟩ := Nat.exists_eq_add_of_lt hlt
          have hcount : m.generated.line - last.generated.line = n + 1 := by omega
          have hwritten := @decodeFrom_written ⟨⟨m.generated.line, 0⟩, last.origin⟩ m source rfl
            true (encodeFrom m false ms)
          rw [ih false hlines] at hwritten
          rw [hcount, decodeFrom_semicolons, ← Nat.add_assoc, ← hn]
          exact hwritten
      · next hge =>
          have hcount : m.generated.line - last.generated.line = 0 := by omega
          rw [hcount, List.replicate_zero, List.nil_append,
            decodeFrom_written (by omega), ih false hlines]
          rfl

end RoundTrip

/-- Mappings in the order of their lines read back, all of them of the first source. -/
theorem decode_encode {ms : List Mapping}
    (hlines : ms.Pairwise fun m m' => m.generated.line ≤ m'.generated.line) :
    decode (encode ms) = some (ms.map fun m => ⟨m, 0⟩) := by
  refine decodeFrom_encodeFrom true (List.pairwise_cons.mpr ⟨?_, hlines⟩)
  exact fun m _ => Nat.zero_le _

end StyleBundler.SourceMap
