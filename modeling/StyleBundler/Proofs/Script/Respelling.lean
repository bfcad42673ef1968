import Mathlib.Algebra.GroupWithZero.Nat
import StyleBundler.Edit
import StyleBundler.Proofs.Script.Relexing
import StyleBundler.Proofs.Text.Cut

/-!
Replacing literals of a script by plain strings. The edits that do so change those
lexemes and no others (`flatMap_text_patches`), and the tokens of the new text are those of
the old one, each moved by the edits before it (`place_respell`).
-/

namespace StyleBundler

/-- The span with both ends moved. -/
def Span.move (f : Nat → Nat) (s : Span) : Span := ⟨f s.start, f s.stop⟩

namespace Script

open Text

/-- New values for literals, by their spans. -/
abbrev Redirects := List (Span × String)

/-- A plain string, in the quotes that a redirect puts around it. -/
def plainText (value : String) : List Char := '\'' :: (value.toList ++ ['\''])

namespace Redirects

/-- The bytes that redirects write up to an offset. -/
def written (rs : Redirects) (p : Nat) : Nat :=
  (rs.map fun x => if x.1.stop ≤ p then byteLength (plainText x.2) else 0).sum

/-- The bytes that redirects replace up to an offset. -/
def replaced (rs : Redirects) (p : Nat) : Nat :=
  (rs.map fun x => if x.1.stop ≤ p then x.1.stop - x.1.start else 0).sum

/-- Where an offset of the text lies after the redirects. -/
def moved (rs : Redirects) (p : Nat) : Nat := p - rs.replaced p + rs.written p

/-- The edit that makes a redirect. -/
def edit (x : Span × String) : Edit := ⟨x.1, String.ofList (plainText x.2)⟩

end Redirects

namespace TokenKind

/-- A literal with a new value is a plain string. -/
def redirect (value? : Option String) : TokenKind → TokenKind
  | .str value => .str (value?.getD value)
  | .template chunks => value?.elim (.template chunks) .str
  | kind => kind

@[simp] theorem redirect_none (kind : TokenKind) : kind.redirect none = kind := by
  cases kind <;> rfl

theorem redirect_some {kind : TokenKind} (h : kind.IsLiteral) (value : String) :
    kind.redirect (some value) = .str value := by
  rcases h with ⟨_, rfl⟩ | ⟨_, rfl⟩ <;> rfl

end TokenKind

/-- The token in the text after the redirects. -/
def Token.redirect (rs : Redirects) (t : Token) : Token :=
  ⟨t.kind.redirect (rs.lookup t.span), t.span.move rs.moved⟩

/-- The lexemes from the byte `pos` on, with those respelled that have a new value. -/
def respell (value? : Span → Option String) (pos : Nat) : List Lexeme → List Lexeme
  | [] => []
  | l :: ls =>
      let stop := pos + byteLength l.text
      let l' :=
        match value? ⟨pos, stop⟩ with
        | some value => ⟨some (.str value), plainText value⟩
        | none => l
      l' :: respell value? stop ls

/-- The lexemes are those of a text: none is empty, and literals start with a quote. -/
def WellSpelled (ls : List Lexeme) : Prop :=
  ∀ l ∈ ls, l.text ≠ [] ∧
    ∀ kind, l.kind = some kind → kind.IsLiteral → ∃ c cs, l.text = c :: cs ∧ isQuote c = true

theorem WellSpelled.tail {l : Lexeme} {ls : List Lexeme} (h : WellSpelled (l :: ls)) :
    WellSpelled ls := fun m hm => h m (List.mem_cons_of_mem l hm)

theorem Lexer.Reads.isQuote {prior : Option TokenKind} {c : Char} {cs : List Char}
    {s : Scan (Option TokenKind)} (h : Reads prior c cs s) {kind : TokenKind}
    (hs : s.value = some kind) (hkind : kind.IsLiteral) : isQuote c = true := by
  cases h with
  | quoted hc => rcases hc with rfl | rfl <;> rfl
  | template => rfl
  | space | line | block => cases hs
  | regex | slash | number | name | sign =>
      cases hs
      rcases hkind with ⟨_, hkind⟩ | ⟨_, hkind⟩ <;> cases hkind

theorem wellSpelled_lexemes (prior : Option TokenKind) (cs : List Char) :
    WellSpelled (lexemes prior cs) := by
  intro l hl
  refine ⟨text_ne_nil_of_mem_lexemes hl, fun kind hvalue hkind => ?_⟩
  obtain ⟨_, c, _, _, hread, rfl⟩ := exists_reads_of_mem_lexemes hl
  obtain ⟨taken, htext⟩ := hread.exists_text
  exact ⟨c, taken, htext, hread.isQuote hvalue hkind⟩

/-- The redirects that are not behind `pos` are for literals among the lexemes there. -/
def Pending (rs : Redirects) (pos : Nat) (ls : List Lexeme) : Prop :=
  ∀ x ∈ rs, x.1.stop ≤ pos ∨ ∃ t ∈ place pos ls, t.span = x.1 ∧ t.kind.IsLiteral

theorem start_of_mem_place {pos : Nat} {ls : List Lexeme} (hls : WellSpelled ls) {t : Token}
    (h : t ∈ place pos ls) : pos ≤ t.span.start ∧ t.span.start < t.span.stop := by
  induction ls generalizing pos with
  | nil => cases h
  | cons l ls ih =>
      have hpos := byteLength_pos (hls l List.mem_cons_self).1
      simp only [place] at h
      split at h
      · rcases List.mem_cons.mp h with rfl | h
        · exact ⟨Nat.le_refl _, by simp only; omega⟩
        · have := ih hls.tail h
          omega
      · have := ih hls.tail h
        omega

/-- A redirect lies before the first lexeme, is for it, or lies behind it. -/
theorem Pending.cases {rs : Redirects} {pos : Nat} {l : Lexeme} {ls : List Lexeme}
    (hls : WellSpelled (l :: ls)) (h : Pending rs pos (l :: ls)) {x : Span × String} (hx : x ∈ rs) :
    x.1.stop ≤ pos ∨
      (x.1 = ⟨pos, pos + byteLength l.text⟩ ∧ ∃ kind, l.kind = some kind ∧ kind.IsLiteral) ∨
      (pos + byteLength l.text ≤ x.1.start ∧ x.1.start < x.1.stop ∧
        ∃ t ∈ place (pos + byteLength l.text) ls, t.span = x.1 ∧ t.kind.IsLiteral) := by
  rcases h x hx with hstop | ⟨t, ht, hspan, hliteral⟩
  · exact .inl hstop
  refine .inr ?_
  have hbehind : ∀ {t : Token}, t ∈ place (pos + byteLength l.text) ls → t.span = x.1 →
      pos + byteLength l.text ≤ x.1.start ∧ x.1.start < x.1.stop := by
    intro t ht hspan
    exact hspan ▸ start_of_mem_place hls.tail ht
  simp only [place] at ht
  split at ht
  · next kind hkind =>
      rcases List.mem_cons.mp ht with rfl | ht
      · exact .inl ⟨hspan.symm, kind, hkind, hliteral⟩
      · obtain ⟨hstart, hlt⟩ := hbehind ht hspan
        exact .inr ⟨hstart, hlt, t, ht, hspan, hliteral⟩
  · obtain ⟨hstart, hlt⟩ := hbehind ht hspan
    exact .inr ⟨hstart, hlt, t, ht, hspan, hliteral⟩

theorem Pending.tail {rs : Redirects} {pos : Nat} {l : Lexeme} {ls : List Lexeme}
    (hls : WellSpelled (l :: ls)) (h : Pending rs pos (l :: ls)) :
    Pending rs (pos + byteLength l.text) ls := by
  intro x hx
  rcases h.cases hls hx with hstop | ⟨hspan, -⟩ | ⟨-, -, ht⟩
  · exact .inl (Nat.le_trans hstop (Nat.le_add_right _ _))
  · exact .inl (Nat.le_of_eq (congrArg Span.stop hspan))
  · exact .inr ht

theorem Pending.head {rs : Redirects} {pos : Nat} {l : Lexeme} {ls : List Lexeme}
    (hls : WellSpelled (l :: ls)) (h : Pending rs pos (l :: ls)) {value : String}
    (hx : (⟨pos, pos + byteLength l.text⟩, value) ∈ rs) :
    ∃ kind, l.kind = some kind ∧ kind.IsLiteral := by
  have hpos := byteLength_pos (hls l List.mem_cons_self).1
  rcases h.cases hls hx with hstop | ⟨-, hkind⟩ | ⟨hstart, -⟩
  · simp only at hstop
    omega
  · exact hkind
  · simp only at hstart
    omega

theorem mem_of_lookup {rs : Redirects} {s : Span} {value : String}
    (h : rs.lookup s = some value) : (s, value) ∈ rs := by
  obtain ⟨front, back, rfl, -⟩ := List.lookup_eq_some_iff.mp h
  simp

theorem lookup_of_mem {rs : Redirects} (hnodup : (rs.map (·.1)).Nodup) {s : Span} {value : String}
    (h : (s, value) ∈ rs) : rs.lookup s = some value := by
  obtain ⟨front, back, rfl⟩ := List.append_of_mem h
  refine List.lookup_eq_some_iff.mpr ⟨front, back, rfl, ?_⟩
  intro x hx
  rw [List.map_append, List.map_cons] at hnodup
  have hfresh := (List.nodup_append.mp hnodup).2.2 x.1 (List.mem_map_of_mem hx) s
    List.mem_cons_self
  exact bne_iff_ne.mpr fun heq => hfresh heq.symm

theorem moved_perm {rs rs' : Redirects} (h : rs.Perm rs') : rs.moved = rs'.moved := by
  have hsum : ∀ f : Span × String → Nat, (rs.map f).sum = (rs'.map f).sum :=
    fun f => (h.map f).sum_nat
  funext p
  simp only [Redirects.moved, Redirects.replaced, Redirects.written, hsum]

/-- What redirects sum up to at the end of a span that no redirect crosses. -/
theorem sum_stop_le {rs : Redirects} {pos stop : Nat} (hlt : pos < stop)
    (hcases : ∀ x ∈ rs, x.1.stop ≤ pos ∨ x.1 = ⟨pos, stop⟩ ∨ stop < x.1.stop)
    (hnodup : (rs.map (·.1)).Nodup) (f : Span × String → Nat) :
    (rs.map fun x => if x.1.stop ≤ stop then f x else 0).sum =
      (rs.map fun x => if x.1.stop ≤ pos then f x else 0).sum +
        match rs.lookup ⟨pos, stop⟩ with
        | some value => f (⟨pos, stop⟩, value)
        | none => 0 := by
  induction rs with
  | nil => rfl
  | cons x rs ih =>
      obtain ⟨span, value⟩ := x
      obtain ⟨hspan, hnodup⟩ := List.nodup_cons.mp hnodup
      have ih := ih (fun y hy => hcases y (List.mem_cons_of_mem _ hy)) hnodup
      have hother : span ≠ ⟨pos, stop⟩ → (⟨pos, stop⟩ == span) = false :=
        fun hne => beq_eq_false_iff_ne.mpr hne.symm
      simp only [List.map_cons, List.sum_cons, List.lookup_cons, ih]
      rcases hcases _ List.mem_cons_self with hstop | rfl | hstop
      · have hne : span ≠ ⟨pos, stop⟩ := by
          rintro rfl
          exact absurd hstop (Nat.not_le_of_gt hlt)
        simp only at hstop
        rw [hother hne, if_pos (Nat.le_trans hstop (Nat.le_of_lt hlt)), if_pos hstop,
          Nat.add_assoc]
      · have hnone : rs.lookup ⟨pos, stop⟩ = none := by
          rw [List.lookup_eq_none_iff]
          intro y hy
          rw [bne_iff_ne]
          intro heq
          exact hspan (List.mem_map.mpr ⟨y, hy, heq.symm⟩)
        simp only [hnone, beq_self_eq_true, Nat.le_refl, if_true, Nat.not_le_of_gt hlt, if_false]
        omega
      · have hne : span ≠ ⟨pos, stop⟩ := by
          rintro rfl
          exact Nat.lt_irrefl _ hstop
        simp only at hstop
        rw [hother hne, if_neg (Nat.not_le_of_gt hstop),
          if_neg (Nat.not_le_of_gt (Nat.lt_trans hlt hstop)), Nat.zero_add, Nat.zero_add]

theorem Pending.sum_eq {rs : Redirects} {pos : Nat} {l : Lexeme} {ls : List Lexeme}
    (hls : WellSpelled (l :: ls)) (h : Pending rs pos (l :: ls)) (hnodup : (rs.map (·.1)).Nodup)
    (f : Span × String → Nat) :
    (rs.map fun x => if x.1.stop ≤ pos + byteLength l.text then f x else 0).sum =
      (rs.map fun x => if x.1.stop ≤ pos then f x else 0).sum +
        match rs.lookup ⟨pos, pos + byteLength l.text⟩ with
        | some value => f (⟨pos, pos + byteLength l.text⟩, value)
        | none => 0 := by
  have hpos := byteLength_pos (hls l List.mem_cons_self).1
  refine sum_stop_le (Nat.lt_add_of_pos_right hpos) ?_ hnodup f
  intro x hx
  rcases h.cases hls hx with hstop | ⟨hspan, -⟩ | ⟨hstart, hlt, -⟩
  · exact .inl hstop
  · exact .inr (.inl hspan)
  · exact .inr (.inr (Nat.lt_of_le_of_lt hstart hlt))

/-- The redirects up to the end of a lexeme move what follows by what it grows. -/
theorem Pending.moved_eq {rs : Redirects} {pos : Nat} {l : Lexeme} {ls : List Lexeme}
    (hls : WellSpelled (l :: ls)) (h : Pending rs pos (l :: ls)) (hnodup : (rs.map (·.1)).Nodup)
    (hle : rs.replaced pos ≤ pos) :
    rs.replaced (pos + byteLength l.text) ≤ pos + byteLength l.text ∧
      rs.moved (pos + byteLength l.text) =
        rs.moved pos +
          match rs.lookup ⟨pos, pos + byteLength l.text⟩ with
          | some value => byteLength (plainText value)
          | none => byteLength l.text := by
  have hwritten := h.sum_eq hls hnodup fun x => byteLength (plainText x.2)
  have hreplaced := h.sum_eq hls hnodup fun x => x.1.stop - x.1.start
  change rs.written _ = rs.written pos + _ at hwritten
  change rs.replaced _ = rs.replaced pos + _ at hreplaced
  cases hlookup : rs.lookup ⟨pos, pos + byteLength l.text⟩ with
  | none =>
      simp only [hlookup] at hwritten hreplaced
      simp only [Redirects.moved]
      omega
  | some value =>
      simp only [hlookup, Nat.add_sub_cancel_left] at hwritten hreplaced
      simp only [Redirects.moved]
      omega

theorem place_respell {rs : Redirects} {pos : Nat} {ls : List Lexeme} (hls : WellSpelled ls)
    (h : Pending rs pos ls) (hnodup : (rs.map (·.1)).Nodup) (hle : rs.replaced pos ≤ pos) :
    place (rs.moved pos) (respell (rs.lookup ·) pos ls) =
      (place pos ls).map (Token.redirect rs) := by
  induction ls generalizing pos with
  | nil => rfl
  | cons l ls ih =>
      obtain ⟨hle', hmoved⟩ := h.moved_eq hls hnodup hle
      have ih := ih hls.tail (h.tail hls) hle'
      rw [hmoved] at ih
      cases hlookup : rs.lookup ⟨pos, pos + byteLength l.text⟩ with
      | none =>
          simp only [hlookup] at ih hmoved
          simp only [respell, hlookup, place, ih]
          cases hkind : l.kind with
          | none => rfl
          | some kind =>
              simp only [List.map_cons, Token.redirect, hlookup, Span.move, hmoved,
                TokenKind.redirect_none]
      | some value =>
          simp only [hlookup] at ih hmoved
          obtain ⟨kind, hkind, hliteral⟩ := h.head hls (mem_of_lookup hlookup)
          simp only [respell, hlookup, place, hkind, ih, List.map_cons, Token.redirect, Span.move,
            hmoved, TokenKind.redirect_some hliteral]

theorem forall₂_respell {rs : Redirects} {pos : Nat} {ls : List Lexeme} (hls : WellSpelled ls)
    (h : Pending rs pos ls) (hplain : ∀ x ∈ rs, x.2.toList.all Lexer.isPlain = true) :
    List.Forall₂ Respelled ls (respell (rs.lookup ·) pos ls) := by
  induction ls generalizing pos with
  | nil => exact .nil
  | cons l ls ih =>
      simp only [respell]
      refine .cons ?_ (ih hls.tail (h.tail hls))
      cases hlookup : rs.lookup ⟨pos, pos + byteLength l.text⟩ with
      | none => exact .same l
      | some value =>
          have hmem : (⟨pos, pos + byteLength l.text⟩, value) ∈ rs := mem_of_lookup hlookup
          obtain ⟨kind, hkind, hliteral⟩ := h.head hls hmem
          exact .plain hkind hliteral ((hls l List.mem_cons_self).2 kind hkind hliteral)
            (hplain _ hmem)

/-- The source in front of all edits stays. -/
theorem flatMap_text_patches_append {cursor : Nat} (front rest : List Char) {es : List Edit}
    (h : ∀ e ∈ es, cursor + byteLength front ≤ e.span.start) :
    (Edits.patches cursor (front ++ rest) es).flatMap Patch.text =
      front ++ (Edits.patches (cursor + byteLength front) rest es).flatMap Patch.text := by
  have hkept : ∀ (c : Nat) (cs : List Char),
      (if cs.isEmpty then [] else [(⟨true, c, cs⟩ : Patch)]).flatMap Patch.text = cs := by
    intro c cs
    cases cs <;> simp
  cases es with
  | nil => simp only [Edits.patches, hkept]
  | cons e es =>
      obtain ⟨n, hn⟩ := Nat.exists_eq_add_of_le (h e List.mem_cons_self)
      have hcut : e.span.start - cursor = byteLength front + n := by omega
      have hcut' : e.span.start - (cursor + byteLength front) = n := by omega
      simp only [Edits.patches, hcut, hcut', cut?_append_add, List.flatMap_append, hkept]
      cases cut? n rest with
      | none => simp
      | some parts => simp

theorem respell_congr {value? value?' : Span → Option String} {pos : Nat} (ls : List Lexeme)
    (h : ∀ s : Span, pos ≤ s.start → value? s = value?' s) :
    respell value? pos ls = respell value?' pos ls := by
  induction ls generalizing pos with
  | nil => rfl
  | cons l ls ih =>
      simp only [respell, h ⟨pos, pos + byteLength l.text⟩ (Nat.le_refl _)]
      rw [ih fun s hs => h s (Nat.le_trans (Nat.le_add_right _ _) hs)]

theorem eq_cons_of_lookup {rs : Redirects} {pos stop : Nat} {value : String}
    (hstart : ∀ x ∈ rs, pos ≤ x.1.start ∧ x.1.start < x.1.stop)
    (hsorted : rs.Pairwise fun a b => a.1.stop ≤ b.1.start)
    (h : rs.lookup ⟨pos, stop⟩ = some value) :
    ∃ rs', rs = (⟨pos, stop⟩, value) :: rs' ∧ ∀ x ∈ rs', stop ≤ x.1.start := by
  have hmem := mem_of_lookup h
  cases rs with
  | nil => cases hmem
  | cons x rs =>
      obtain ⟨hbefore, -⟩ := List.pairwise_cons.mp hsorted
      rcases List.mem_cons.mp hmem with rfl | hmem
      · exact ⟨rs, rfl, hbefore⟩
      · have hle := hbefore _ hmem
        have := hstart x List.mem_cons_self
        simp only at hle
        omega

/-- An edit of what stands first writes its plain string there. -/
theorem flatMap_text_patches_cons (pos : Nat) (text rest : List Char) (value : String)
    (es : List Edit) :
    (Edits.patches pos (text ++ rest)
        (Redirects.edit (⟨pos, pos + byteLength text⟩, value) :: es)).flatMap Patch.text =
      plainText value ++
        (Edits.patches (pos + byteLength text) rest es).flatMap Patch.text := by
  have hplain : (String.ofList (plainText value)).isEmpty = false := by
    rw [Bool.eq_false_iff]
    intro hempty
    have := congrArg String.toList (String.isEmpty_iff.mp hempty)
    simp only [String.toList_ofList, plainText] at this
    cases this
  simp only [Edits.patches, Redirects.edit, Nat.sub_self, cut?_zero, Option.getD_some,
    Nat.add_sub_cancel_left, cut?_append, List.isEmpty_nil, hplain, if_true, List.nil_append,
    String.toList_ofList]
  rfl

/-- The redirects are behind a lexeme that stays. -/
theorem Pending.le_start {rs : Redirects} {pos : Nat} {l : Lexeme} {ls : List Lexeme}
    (hls : WellSpelled (l :: ls)) (h : Pending rs pos (l :: ls))
    (hstart : ∀ x ∈ rs, pos ≤ x.1.start ∧ x.1.start < x.1.stop)
    (hlookup : rs.lookup ⟨pos, pos + byteLength l.text⟩ = none) :
    ∀ x ∈ rs, pos + byteLength l.text ≤ x.1.start := by
  intro x hx
  rcases h.cases hls hx with hstop | ⟨hspan, -⟩ | ⟨hle, -⟩
  · have := hstart x hx
    omega
  · rw [List.lookup_eq_none_iff] at hlookup
    exact absurd hspan.symm (bne_iff_ne.mp (hlookup x hx))
  · exact hle

theorem lookup_cons_of_le {rs : Redirects} {pos stop : Nat} (hlt : pos < stop) (value : String)
    {s : Span} (hs : stop ≤ s.start) :
    List.lookup s ((⟨pos, stop⟩, value) :: rs) = rs.lookup s := by
  have hne : (s == (⟨pos, stop⟩ : Span)) = false := by
    rw [beq_eq_false_iff_ne]
    rintro rfl
    exact absurd hlt (Nat.not_lt_of_le hs)
  simp only [List.lookup_cons, hne]

/-- Edits that respell literals leave all other lexemes as they are. -/
theorem flatMap_text_patches {rs : Redirects} {pos : Nat} {ls : List Lexeme}
    (hls : WellSpelled ls) (h : Pending rs pos ls)
    (hstart : ∀ x ∈ rs, pos ≤ x.1.start ∧ x.1.start < x.1.stop)
    (hsorted : rs.Pairwise fun a b => a.1.stop ≤ b.1.start) :
    (Edits.patches pos (ls.flatMap Lexeme.text) (rs.map Redirects.edit)).flatMap Patch.text =
      (respell (rs.lookup ·) pos ls).flatMap Lexeme.text := by
  induction ls generalizing pos rs with
  | nil =>
      cases rs with
      | nil => rfl
      | cons x rs =>
          have hpos := hstart x List.mem_cons_self
          rcases h x List.mem_cons_self with hstop | ⟨t, ht, -⟩
          · omega
          · cases ht
  | cons l ls ih =>
      have hpos := byteLength_pos (hls l List.mem_cons_self).1
      rw [List.flatMap_cons]
      cases hlookup : rs.lookup ⟨pos, pos + byteLength l.text⟩ with
      | none =>
          have hbehind := h.le_start hls hstart hlookup
          have hedits : ∀ e ∈ rs.map Redirects.edit, pos + byteLength l.text ≤ e.span.start := by
            intro e he
            obtain ⟨x, hx, rfl⟩ := List.mem_map.mp he
            exact hbehind x hx
          rw [flatMap_text_patches_append l.text _ hedits,
            ih hls.tail (h.tail hls) (fun x hx => ⟨hbehind x hx, (hstart x hx).2⟩) hsorted]
          simp only [respell, hlookup, List.flatMap_cons]
      | some value =>
          obtain ⟨rs, rfl, hbehind⟩ := eq_cons_of_lookup hstart hsorted hlookup
          have hpending : Pending rs (pos + byteLength l.text) ls :=
            fun x hx => h.tail hls x (List.mem_cons_of_mem _ hx)
          have ih := ih hls.tail hpending
            (fun x hx => ⟨hbehind x hx, (hstart x (List.mem_cons_of_mem _ hx)).2⟩)
            (List.pairwise_cons.mp hsorted).2
          rw [List.map_cons, flatMap_text_patches_cons, ih]
          simp only [respell, hlookup, List.flatMap_cons]
          rw [respell_congr ls fun s hs =>
            lookup_cons_of_le (Nat.lt_add_of_pos_right hpos) value hs]

theorem nodup_spans {code : String} {rs : Redirects}
    (hspans : ∀ x ∈ rs, ∃ t ∈ tokenize code, t.span = x.1 ∧ t.kind.IsLiteral)
    (hsorted : rs.Pairwise fun a b => a.1.stop ≤ b.1.start) : (rs.map (·.1)).Nodup := by
  rw [List.Nodup, List.pairwise_map]
  refine hsorted.imp_of_mem ?_
  intro x y hx _ hle heq
  obtain ⟨t, ht, hspan, -⟩ := hspans x hx
  have := (start_of_mem_place (wellSpelled_lexemes none code.toList) ht).2
  rw [hspan, heq] at this
  rw [heq] at hle
  omega

/-- The tokens of a script whose literals gave way to plain strings are its own, redirected. -/
theorem tokenize_patches {code : String} {rs : Redirects}
    (hspans : ∀ x ∈ rs, ∃ t ∈ tokenize code, t.span = x.1 ∧ t.kind.IsLiteral)
    (hsorted : rs.Pairwise fun a b => a.1.stop ≤ b.1.start)
    (hplain : ∀ x ∈ rs, x.2.toList.all Lexer.isPlain = true) :
    tokenize (String.ofList
        ((Edits.patches 0 code.toList (rs.map Redirects.edit)).flatMap Patch.text)) =
      (tokenize code).map (Token.redirect rs) := by
  have hls : WellSpelled (lexemes none code.toList) := wellSpelled_lexemes none code.toList
  have hpending : Pending rs 0 (lexemes none code.toList) := fun x hx => .inr (hspans x hx)
  have hstart : ∀ x ∈ rs, 0 ≤ x.1.start ∧ x.1.start < x.1.stop := by
    intro x hx
    obtain ⟨t, ht, hspan, -⟩ := hspans x hx
    exact hspan ▸ start_of_mem_place hls ht
  have hnodup := nodup_spans hspans hsorted
  have hpatches := flatMap_text_patches hls hpending hstart hsorted
  rw [flatMap_text_lexemes] at hpatches
  have hahead : ∀ f : Span × String → Nat,
      (rs.map fun x => if x.1.stop ≤ 0 then f x else 0).sum = 0 := by
    intro f
    rw [List.sum_eq_zero_iff_forall_eq_nat]
    intro n hn
    obtain ⟨x, hx, rfl⟩ := List.mem_map.mp hn
    exact if_neg (Nat.not_le_of_gt (Nat.zero_lt_of_lt (hstart x hx).2))
  have hreplaced : rs.replaced 0 = 0 := hahead _
  have hmoved : rs.moved 0 = 0 := by
    rw [Redirects.moved, hreplaced, Redirects.written, hahead]
  have hplace := place_respell hls hpending hnodup (Nat.le_of_eq hreplaced)
  rw [hmoved] at hplace
  rw [tokenize, tokenize, String.toList_ofList, hpatches,
    lexemes_respelled rfl (forall₂_respell hls hpending hplain), hplace]

end Script
end StyleBundler
