import StyleBundler.Proofs.Edit.Calls
import StyleBundler.Proofs.SourceMap.Decoding
import StyleBundler.Proofs.SourceMap.Points
import StyleBundler.Proofs.SourceMap.Position

/-!
Following an edited text back to its source. A position is looked up as a reader of the map does:
the last segment on its line that does not start behind it, and from there as many columns on.
For edits that apply, what is written as mappings decodes to segments in strict order that lead
each replacement to the start of its edit, and each copied character to itself.
-/

namespace StyleBundler.SourceMap

open Text

/-- The origin of a position: that of the last segment at or before it on its line, advanced by
the columns between the two. -/
def origin? (segments : List Segment) (p : Position) : Option Position :=
  (segments.filter fun m => m.generated.line = p.line ∧ m.generated.column ≤ p.column).getLast?.map
    fun m => ⟨m.origin.line, m.origin.column + (p.column - m.generated.column)⟩

theorem origin?_append_cons {earlier later : List Segment} {m : Segment} {p : Position}
    (hline : m.generated.line = p.line) (hcolumn : m.generated.column ≤ p.column)
    (hlater : ∀ m' ∈ later, p.Before m'.generated) :
    origin? (earlier ++ m :: later) p =
      some ⟨m.origin.line, m.origin.column + (p.column - m.generated.column)⟩ := by
  have hnone : later.filter (fun m' => decide
      (m'.generated.line = p.line ∧ m'.generated.column ≤ p.column)) = [] := by
    rw [List.filter_eq_nil_iff]
    intro m' hm'
    have hbefore := hlater m' hm'
    rw [decide_eq_true_eq]
    simp only [Position.Before] at hbefore
    omega
  rw [origin?, List.filter_append, List.filter_cons_of_pos (by simp [hline, hcolumn]), hnone,
    List.getLast?_append_of_ne_nil _ (List.cons_ne_nil _ _)]
  rfl

/-- A segment leads its own position to its origin. -/
theorem origin?_of_mem {segments : List Segment} {m : Segment}
    (hordered : segments.Pairwise fun m m' => m.generated.Before m'.generated)
    (h : m ∈ segments) : origin? segments m.generated = some m.origin := by
  obtain ⟨earlier, later, rfl⟩ := List.append_of_mem h
  rw [origin?_append_cons rfl (Nat.le_refl _), Nat.sub_self, Nat.add_zero]
  exact (List.pairwise_cons.mp (List.pairwise_append.mp hordered).2.1).1

section Mappings

variable {source front text : List Char} {pts : List (Nat × Nat)}

/-- The mapping of a point. -/
def mappingAt (source code : List Char) (q : Nat × Nat) : Mapping :=
  ⟨positionAt code q.1, positionAt source q.2⟩

theorem mappings_eq {source : List Char} {r : EditedText}
    (h : Traced (byteLength r.front) text 0 source (points (byteLength r.front) r.patches)) :
    mappings source r =
      (points (byteLength r.front) r.patches).map (mappingAt source r.code) := by
  let found := points (byteLength r.front) r.patches
  have hgenerated : (found.map (·.1)).Pairwise (· ≤ ·) :=
    List.pairwise_map.mpr (h.ordered.imp fun hpq => Nat.le_of_lt hpq.1)
  have horigin : (found.map (·.2)).Pairwise (· ≤ ·) :=
    List.pairwise_map.mpr (h.ordered.imp fun hpq => hpq.2)
  rw [mappings, positions_start r.code hgenerated, positions_start source horigin, List.map_map,
    List.map_map, List.zipWith_map, List.zipWith_self]
  rfl

/-- What is written for points reads back as these segments. -/
def segmentsAt (source code : List Char) (pts : List (Nat × Nat)) : List Segment :=
  pts.map fun q => ⟨mappingAt source code q, 0⟩

theorem Traced.pairwise_segmentsAt (h : Traced (byteLength front) text 0 source pts) :
    (segmentsAt source (front ++ text) pts).Pairwise fun m m' =>
      m.generated.Before m'.generated := by
  refine List.pairwise_map.mpr (h.ordered.imp_of_mem ?_)
  intro p q hp hq hpq
  obtain ⟨u, v, htext, -, hu⟩ := h.generated p hp
  obtain ⟨u', v', htext', -, hu'⟩ := h.generated q hq
  have hcode : front ++ text = (front ++ u) ++ v := by rw [htext, List.append_assoc]
  have hcode' : front ++ text = (front ++ u') ++ v' := by rw [htext', List.append_assoc]
  rw [← byteLength_append] at hu hu'
  simp only [mappingAt]
  rw [positionAt_eq hcode hu, positionAt_eq hcode' hu']
  refine Position.after_before (hcode.symm.trans hcode') ?_
  rw [← hu, ← hu']
  exact hpq.1

theorem Traced.decode_encode (h : Traced (byteLength front) text 0 source pts) :
    decode (encode (pts.map (mappingAt source (front ++ text)))) =
      some (segmentsAt source (front ++ text) pts) := by
  have hlines := (List.pairwise_map.mp h.pairwise_segmentsAt).imp fun h =>
    Position.Before.line_le h
  rw [SourceMap.decode_encode (List.pairwise_map.mpr hlines), List.map_map]
  rfl

/-- The origin of a traced point is a position of the source. -/
theorem Traced.origin_segmentsAt (h : Traced (byteLength front) text 0 source pts)
    (code : List Char) : ∀ m ∈ segmentsAt source code pts,
      m.source = 0 ∧ ∃ a b, source = a ++ b ∧ m.origin = .after a := by
  intro m hm
  obtain ⟨q, hq, rfl⟩ := List.mem_map.mp hm
  obtain ⟨a, b, hsource, ha⟩ := h.origin q hq
  exact ⟨rfl, a, b, hsource, positionAt_eq hsource (by rw [ha, Nat.zero_add])⟩

/-- An anchored character is led to itself. -/
theorem Anchored.origin? {a before b : List Char} {c : Char}
    (h : Anchored (byteLength front) 0 a c before text pts)
    (htraced : Traced (byteLength front) text 0 source pts) (hsource : source = a ++ b) :
    origin? (segmentsAt source (front ++ text) pts) (.after (front ++ before)) =
      some (.after a) := by
  obtain ⟨a₁, before₁, mid, after, earlier, later, rfl, rfl, hline, rfl, rfl, hlater⟩ := h
  have hgenerated : positionAt (front ++ (before₁ ++ mid ++ c :: after))
      (byteLength front + byteLength before₁) = .after (front ++ before₁) :=
    positionAt_eq (b := mid ++ c :: after) (by simp) (by rw [byteLength_append])
  have horigin : positionAt source (0 + byteLength a₁) = .after a₁ :=
    positionAt_eq (b := mid ++ b) (by rw [hsource, List.append_assoc]) (Nat.zero_add _)
  rw [segmentsAt, List.map_append, List.map_cons, origin?_append_cons]
  · simp only [mappingAt, hgenerated, horigin]
    rw [← List.append_assoc, Position.after_append _ mid, Position.after_append _ mid,
      Position.behind_of_not_mem _ hline, Position.behind_of_not_mem _ hline]
    simp
  · simp only [mappingAt, hgenerated]
    rw [← List.append_assoc, Position.after_append _ mid, Position.behind_of_not_mem _ hline]
  · simp only [mappingAt, hgenerated]
    rw [← List.append_assoc, Position.after_append _ mid, Position.behind_of_not_mem _ hline]
    exact Nat.le_add_right _ _
  · intro m hm
    obtain ⟨q, hq, rfl⟩ := List.mem_map.mp hm
    obtain ⟨u, v, htext, -, hu⟩ := htraced.generated q (by simp [hq])
    have hcode : front ++ (before₁ ++ mid ++ c :: after) = (front ++ u) ++ v := by
      rw [htext, List.append_assoc]
    rw [← byteLength_append] at hu
    simp only [mappingAt]
    rw [positionAt_eq hcode hu]
    have hbehind := hlater q hq
    refine @Position.after_before _ (c :: after) _ v ?_ ?_
    · rw [← hcode]
      simp
    · rw [byteLength_append front, ← hu]
      exact hbehind

end Mappings

/-- Valid edits, with or without texts in front, give a text and a map of it. The mappings decode
to segments in strict order of the text, and every origin is a position of the source. The start
of each replacement that is not empty leads to the start of its edit. Each character of the
source outside the edited spans stands behind what the edits before it make of the source before
it, and leads to its own line and column. -/
theorem decode_mappings {s : Edits} {source : List Char} (hcalled : s.isEmpty = false)
    (hvalid : Edits.Valid source s.edits) :
    ∃ r segments, s.apply source = .ok (some r) ∧ r.front = (String.join s.front).toList ∧
      decode (encode (mappings source r)) = some segments ∧
      segments.Pairwise (fun m m' => m.generated.Before m'.generated) ∧
      (∀ m ∈ segments, m.source = 0 ∧ ∃ a b, source = a ++ b ∧ m.origin = .after a) ∧
      (∀ done e todo, Edits.ordered s.edits = done ++ e :: todo → e.replacement ≠ "" →
        ∃ a b before after, source = a ++ b ∧ byteLength a = e.span.start ∧
          Edits.spliceEach a done = some before ∧
          r.code = r.front ++ before ++ e.replacement.toList ++ after ∧
          ⟨⟨.after (r.front ++ before), .after a⟩, 0⟩ ∈ segments ∧
          origin? segments (.after (r.front ++ before)) = some (.after a)) ∧
      ∀ a c b, source = a ++ c :: b →
        (∀ e ∈ s.edits, ¬(e.span.start ≤ byteLength a ∧ byteLength a < e.span.stop)) →
        ∃ before after,
          Edits.spliceEach a ((Edits.ordered s.edits).filter (·.span.stop ≤ byteLength a)) =
            some before ∧
          r.code = r.front ++ before ++ c :: after ∧
          origin? segments (.after (r.front ++ before)) = some (.after a) := by
  let order := Edits.ordered s.edits
  let front := (String.join s.front).toList
  let text := Edits.patched 0 source order
  let pts := points (byteLength front) (Edits.patches 0 source order)
  have horder : Edits.Valid source order := hvalid.perm (Edits.ordered_perm _).symm
  have haligned := horder.aligned (horder.pairwise_stop_le (Edits.pairwise_ordered _))
  have htraced : Traced (byteLength front) text 0 source pts := haligned.traced _
  have hmappings : mappings source ⟨front, Edits.patches 0 source order⟩ =
      pts.map (mappingAt source (front ++ text)) := mappings_eq htraced
  have hpairwise := htraced.pairwise_segmentsAt
  refine ⟨⟨front, Edits.patches 0 source order⟩, segmentsAt source (front ++ text) pts,
    Edits.apply_of_valid hcalled hvalid, rfl, ?decode, hpairwise, ?origins, ?replacements,
    ?characters⟩
  case decode => rw [hmappings, htraced.decode_encode]
  case origins => exact htraced.origin_segmentsAt _
  case replacements =>
    intro done e todo hsplit hreplacement
    have halign : Edits.Aligned 0 source (done ++ e :: todo) := hsplit ▸ haligned
    obtain ⟨a, b, after, hsource, ha, hdone, hpatched, hpoint⟩ :=
      halign.exists_replacement hreplacement (byteLength front)
    rw [← hsplit] at hpatched hpoint
    have hcode : front ++ text = front ++ Edits.patched 0 a done ++
        (e.replacement.toList ++ after) := by
      rw [List.append_assoc]
      exact congrArg (front ++ ·) hpatched
    have hsegment : ⟨⟨.after (front ++ Edits.patched 0 a done), .after a⟩, 0⟩ ∈
        segmentsAt source (front ++ text) pts := by
      refine List.mem_map.mpr ⟨_, hpoint, ?_⟩
      rw [mappingAt, positionAt_eq hcode (byteLength_append _ _).symm,
        positionAt_eq hsource (by omega)]
    refine ⟨a, b, Edits.patched 0 a done, after, hsource, by omega, hdone.spliceEach_eq, ?_,
      hsegment, origin?_of_mem hpairwise hsegment⟩
    rw [List.append_assoc]
    exact hcode
  case characters =>
    intro a c b hsource houtside
    have hcovered : ∀ d ∈ order,
        ¬(d.span.start ≤ 0 + byteLength a ∧ 0 + byteLength a < d.span.stop) := by
      intro d hd
      rw [Nat.zero_add]
      exact houtside d ((Edits.ordered_perm _).mem_iff.mp hd)
    obtain ⟨hbefore, hanchored⟩ := haligned.anchored hsource hcovered (byteLength front)
    rw [Nat.zero_add] at hbefore hanchored
    have horigin := hanchored.origin? htraced hsource
    obtain ⟨-, -, -, after, -, -, -, -, -, htext, -⟩ := hanchored
    refine ⟨_, after, hbefore.spliceEach_eq, ?_, horigin⟩
    rw [List.append_assoc]
    exact congrArg (front ++ ·) htext

/-- A text in front with a line break, a replacement of two lines, an insertion and a removal,
behind a character of two units. -/
theorem decode_mappings_lines :
    let s : Edits := ⟨[⟨⟨4, 5⟩, "x\ny"⟩, ⟨⟨6, 6⟩, "i"⟩, ⟨⟨7, 8⟩, ""⟩], ["p\n"]⟩
    let source := ['😀', 'a', '\n', 'b', 'c', 'd']
    s.isEmpty = false ∧ Edits.Valid source s.edits ∧
      ∃ r segments, s.apply source = .ok (some r) ∧
        decode (encode (mappings source r)) = some segments ∧
        r.code = ['p', '\n', '😀', 'x', '\n', 'y', '\n', 'i', 'b', 'd'] ∧
        origin? segments ⟨1, 2⟩ = some ⟨0, 2⟩ ∧ origin? segments ⟨2, 1⟩ = some ⟨0, 3⟩ ∧
        origin? segments ⟨3, 2⟩ = some ⟨1, 2⟩ := by
  intro s source
  have hvalid : Edits.Valid source s.edits := by decide
  have horder : Edits.ordered s.edits = s.edits := List.mergeSort_of_pairwise (by decide)
  obtain ⟨r, segments, happly, -, hdecode, -, -, hreplacements, hcharacters⟩ :=
    decode_mappings (s := s) rfl hvalid
  have hfront : (String.join s.front).toList = ['p', '\n'] := by decide +kernel
  have hresult := Edits.apply_of_valid (s := s) rfl hvalid
  rw [horder, hfront] at hresult
  cases happly.symm.trans hresult
  rw [horder] at hreplacements hcharacters
  refine ⟨rfl, hvalid, _, segments, happly, hdecode, by decide +kernel, ?replaced, ?kept, ?last⟩
  case replaced =>
    obtain ⟨a, b, before, -, hsource, ha, hbefore, -, -, horigin⟩ :=
      hreplacements [] ⟨⟨4, 5⟩, "x\ny"⟩ _ rfl (by decide)
    obtain ⟨rfl, -⟩ := append_inj_of_byteLength (a := ['😀']) hsource (ha ▸ by decide)
    cases hbefore
    exact horigin
  case kept =>
    obtain ⟨before, -, hbefore, -, horigin⟩ :=
      hcharacters ['😀', 'a'] '\n' ['b', 'c', 'd'] rfl (by decide)
    have hspliced : Edits.spliceEach ['😀', 'a']
        (s.edits.filter (·.span.stop ≤ byteLength ['😀', 'a'])) =
          some ['😀', 'x', '\n', 'y'] := by decide
    cases hspliced.symm.trans hbefore
    exact horigin
  case last =>
    obtain ⟨before, -, hbefore, -, horigin⟩ :=
      hcharacters ['😀', 'a', '\n', 'b', 'c'] 'd' [] rfl (by decide)
    have hspliced : Edits.spliceEach ['😀', 'a', '\n', 'b', 'c']
        (s.edits.filter (·.span.stop ≤ byteLength ['😀', 'a', '\n', 'b', 'c'])) =
          some ['😀', 'x', '\n', 'y', '\n', 'i', 'b'] := by decide
    cases hspliced.symm.trans hbefore
    exact horigin

end StyleBundler.SourceMap
