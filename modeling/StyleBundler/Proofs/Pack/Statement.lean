import StyleBundler.Proofs.Pack.Inert

/-!
The statements that packing writes. Each binds a variable to a value, and a text made of such
statements, and of others that import no asset, can stand in front of any unit (`IsLead`). A call
that gives way to a settled promise of a value leaves no import either (`settled_promise`).
-/

namespace StyleBundler

open Script

/-- Lexemes that are read as they are wherever they stand, end with a statement, and import
nothing. -/
structure Leads (store : AssetStore) (ls : List Lexeme) : Prop where
  chain : ∀ prior ds, Chain prior ls ds
  ends : ∀ prior, lastKind prior ls = prior ∨ lastKind prior ls = some (.punct ';')
  quiet : ∀ before pos behind, Plan.Quiet store before (place pos ls) behind

namespace Leads

variable {store : AssetStore} {a b : List Lexeme}

theorem nil : Leads store [] where
  chain _ _ := trivial
  ends _ := .inl rfl
  quiet _ _ _ := trivial

theorem append (ha : Leads store a) (hb : Leads store b) : Leads store (a ++ b) where
  chain prior ds := (ha.chain prior _).append (hb.chain _ ds)
  ends prior := by
    rw [lastKind_append]
    rcases hb.ends (lastKind prior a) with h | h
    · rw [h]
      exact ha.ends prior
    · exact .inr h
  quiet before pos behind := by
    rw [place_append]
    exact (ha.quiet _ _ _).append (hb.quiet _ _ _)

end Leads

/-- The text is read as lexemes that can stand in front of a unit. -/
def IsLead (store : AssetStore) (text : String) : Prop :=
  ∃ ls, spell ls = text.toList ∧ Leads store ls

namespace IsLead

variable {store : AssetStore}

theorem empty : IsLead store "" := ⟨[], rfl, .nil⟩

theorem append {s t : String} (hs : IsLead store s) (ht : IsLead store t) :
    IsLead store (s ++ t) := by
  obtain ⟨a, ha, hleads⟩ := hs
  obtain ⟨b, hb, hleads'⟩ := ht
  exact ⟨a ++ b, by rw [spell_append, ha, hb, String.toList_append], hleads.append hleads'⟩

theorem join {texts : List String} (h : ∀ s ∈ texts, IsLead store s) :
    IsLead store (String.join texts) := by
  induction texts with
  | nil => exact empty
  | cons s texts ih =>
      rw [String.join_cons]
      exact (h s List.mem_cons_self).append (ih fun t ht => h t (List.mem_cons_of_mem s ht))

end IsLead

/-- Pieces that write a value, by names that need not be known. -/
structure Value (store : AssetStore) (v : List Piece) : Prop where
  sound : ∀ p ∈ v, p.Sound
  closable : Piece.Closable v
  inert : ∀ pos, Plan.Inert store (place pos (Piece.write v))

namespace Value

variable {store : AssetStore} {v : List Piece}

theorem word {name : String} (h : IsName name.toList) : Value store [.word name] where
  sound := List.forall_mem_singleton.mpr h
  closable := Piece.closable_word name
  inert _ := .word rfl

theorem object (h : Value store v) : Value store (Piece.object v) where
  sound := List.forall_mem_append.mpr
    ⟨by decide, List.forall_mem_append.mpr ⟨h.sound, by decide⟩⟩
  closable := by
    have hv := Piece.spaced_append (b := [.sign '\x7d']) (h.closable (.blank ' ') rfl) rfl
    have hall := Piece.spaced_append (a := [.sign '\x7b', .blank ' ', .word "default", .sign ':',
      .blank ' ']) rfl hv
    exact Piece.closable_of_spaced (by simpa [Piece.object] using hall)
  inert pos := by
    rw [Piece.object, Piece.write_append, Piece.write_append, place_append, place_append]
    exact (((h.inert _).sign rfl rfl).word_sign rfl rfl (by decide)).braces rfl rfl

/-- A statement that binds a name to a value can stand in front of a unit. -/
theorem leads_binding (h : Value store v) {name : String} (hname : IsName name.toList) :
    Leads store (Piece.write (Piece.binding name v)) where
  chain prior ds := by
    refine Piece.chain_write ?_ ?_ prior ds
    · exact List.forall_mem_append.mpr ⟨by decide, List.forall_mem_cons.mpr ⟨hname,
        List.forall_mem_append.mpr ⟨by decide, List.forall_mem_append.mpr ⟨h.sound, by decide⟩⟩⟩⟩
    · have hv := Piece.spaced_append (b := [.blank '\n']) (h.closable (.sign ';') rfl) rfl
      have hall := Piece.spaced_append (a := [.word "const", .blank ' ', .word name, .blank ' ',
        .sign '=', .blank ' ']) rfl hv
      simpa [Piece.binding] using hall
  ends prior := .inr (by simp [Piece.binding, Piece.lexeme])
  quiet before pos behind := by
    have hwrite : Piece.write (Piece.binding name v) =
        Piece.write [.word "const", .blank ' ', .word name, .blank ' ', .sign '=', .blank ' '] ++
          (Piece.write v ++ Piece.write [.sign ';', .blank '\n']) := by simp [Piece.binding]
    rw [hwrite, place_append, place_append]
    exact (h.inert _).quiet_binding rfl rfl rfl rfl before behind

end Value

/-- A promise of a value takes the place of a call. -/
theorem settled_promise {v : List Piece} (hsound : ∀ p ∈ v, p.Sound) (hclosable : Piece.Closable v)
    (hv : ∀ p ∈ v, p ≠ .word "import") (awaited : Bool) :
    Settled (Piece.write (Piece.promise v awaited)) where
  chain prior ds := by
    refine Piece.chain_write ?_ ?_ prior ds
    · refine List.forall_mem_append.mpr ⟨?_, List.forall_mem_append.mpr
        ⟨by decide, List.forall_mem_append.mpr ⟨hsound, by decide⟩⟩⟩
      cases awaited <;> decide
    · have hv := Piece.spaced_append (a := [.word "Promise", .sign '.', .word "resolve",
        .sign '(']) rfl (hclosable (.sign ')') rfl)
      cases awaited with
      | false => exact hv
      | true => exact Piece.spaced_append (a := [.word "await", .blank ' ']) rfl hv
  closed prior := by simp [Piece.promise, Piece.lexeme]
  word := by cases awaited <;> exact ⟨_, _, rfl, rfl⟩
  first := by cases awaited <;> exact ⟨_, rfl⟩
  silent l hl := by
    obtain ⟨p, hp, rfl⟩ := List.mem_map.mp hl
    have hne : p ≠ .word "import" := by
      simp only [Piece.promise, List.mem_append] at hp
      rcases hp with hp | hp | hp | hp
      · rintro rfl
        cases awaited <;> simp at hp
      · rintro rfl
        simp at hp
      · exact hv p hp
      · rintro rfl
        simp at hp
    cases p with
    | word name => simpa [Piece.lexeme] using hne
    | sign c | blank c | quote value => simp [Piece.lexeme]

theorem spell_promise {v : List Piece} {value : String} (hv : spell (Piece.write v) = value.toList)
    (awaited : Bool) :
    spell (Piece.write (Piece.promise v awaited)) = (settledPromise value awaited).toList := by
  cases awaited <;>
    simp [Piece.promise, settledPromise, hv, String.toList_append, Piece.lexeme]

/-- The text can take the place of the entry: none for a declaration, and one that imports nothing
for a call. -/
def PlannedImport.FilledBy (e : PlannedImport) (text : String) : Prop :=
  ∃ new, spell new = text.toList ∧ (e.isDeclaration = true → new = []) ∧
    (e.isDeclaration = false → Settled new)

end StyleBundler
