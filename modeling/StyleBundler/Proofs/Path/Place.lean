import StyleBundler.Proofs.Asset.Store
import StyleBundler.Proofs.Path

/-!
Normal paths and the places that they stand for. A path that never climbs above the root leads to
one place, and normalised it is the path of that place (`normalize_eq_pathOf`); spellings of one
path that differ in slashes, dots and names taken back have the same normal path
(`Respelled.normalize_eq`). So a stylesheet has one cell, however the specifiers spell its path.
-/

namespace StyleBundler.Path

open Text FileTree

variable {a b text : List Char} {cs stack : List Component} {l l' : Location} {p q : Path}

/-- Where components lead from a place. Nothing stands above the root. -/
def placeFrom? (l : Location) : List Component → Option Location
  | [] => some l
  | .root :: cs => placeFrom? [] cs
  | .current :: cs => placeFrom? l cs
  | .name s :: cs => placeFrom? (l ++ [s]) cs
  | .parent :: cs => if l.isEmpty then none else placeFrom? l.dropLast cs

/-- The place that an absolute path leads to, by its components alone. -/
def place? (p : Path) : Option Location := if p.isAbsolute then placeFrom? [] p.components else none

/-- Without dots, and with no `..` behind a name. -/
structure IsNormal (p : Path) : Prop where
  undotted : .current ∉ p.components
  ahead : ∀ front s back, p.components = front ++ .name s :: back → .parent ∉ back

/-- No name goes on in the text. -/
def EndsPiece (b : List Char) : Prop := b = [] ∨ b.head? = some '/'

/-- Two spellings of one path, by slashes, dots and names that a `..` takes back. -/
inductive Respelled : Path → Path → Prop
  | slash {p q : Path} (a b : List Char) (hp : p.text.toList = a ++ '/' :: '/' :: b)
      (hq : q.text.toList = a ++ '/' :: b) : Respelled p q
  | closing {p q : Path} (a : List Char) (ha : a ≠ []) (hp : p.text.toList = a ++ ['/'])
      (hq : q.text.toList = a) : Respelled p q
  | dot {p q : Path} (a b : List Char) (hb : EndsPiece b)
      (hp : p.text.toList = a ++ '/' :: '.' :: b) (hq : q.text.toList = a ++ '/' :: b) :
      Respelled p q
  | taken {p q : Path} (a : List Char) (s : String) (b : List Char) (hs : IsName s)
      (hb : EndsPiece b) (hp : p.text.toList = a ++ '/' :: (s.toList ++ '/' :: '.' :: '.' :: b))
      (hq : q.text.toList = a ++ '/' :: b) : Respelled p q
  | refl (p : Path) : Respelled p p
  | symm {p q : Path} : Respelled p q → Respelled q p
  | trans {p q r : Path} : Respelled p q → Respelled q r → Respelled p r

theorem splitOn_append (sign : Char) (a b : List Char) :
    splitOn sign (a ++ sign :: b) = splitOn sign a ++ splitOn sign b := by
  induction a with
  | nil => simp [splitOn]
  | cons c a ih =>
      simp only [List.cons_append, splitOn, ih]
      split
      · rfl
      · cases hpieces : splitOn sign a with
        | nil => exact absurd hpieces (splitOn_ne_nil sign a)
        | cons piece pieces => rfl

theorem stepsOf_append (a b : List Char) : stepsOf (a ++ '/' :: b) = stepsOf a ++ stepsOf b := by
  simp only [stepsOf, splitOn_append, List.filter_append, List.map_append]

theorem stepsOf_slash (b : List Char) : stepsOf ('/' :: b) = stepsOf b := stepsOf_append [] b

theorem stepsOf_piece (a : List Char) (hb : EndsPiece b) :
    stepsOf (a ++ b) = stepsOf a ++ stepsOf b := by
  obtain rfl | hb := hb
  · rw [List.append_nil]
    exact (List.append_nil _).symm
  · obtain ⟨b, rfl⟩ := List.head?_eq_some_iff.mp hb
    rw [stepsOf_append, stepsOf_slash]

theorem stepsOf_name {s : String} (hs : IsName s) : stepsOf s.toList = [.name s] := by
  rw [stepsOf, splitOn_of_notMem hs.noSlash, List.filter_cons_of_pos (by simp [hs.notIdle])]
  simp [pieceComponent, hs.notParent]

theorem startOf_append_of_ne_nil (ha : a ≠ []) (b : List Char) :
    startOf (a ++ '/' :: b) = startOf a := by
  have hpiece : (splitOn '/' (a ++ '/' :: b)).head? = (splitOn '/' a).head? := by
    rw [splitOn_append]
    exact List.head?_append_of_ne_nil _ (splitOn_ne_nil _ _)
  rw [startOf, startOf, hpiece, List.head?_append_of_ne_nil _ ha]

/-- What a path starts with is decided in front of its first slash. -/
theorem startOf_append (a b b' : List Char) :
    startOf (a ++ '/' :: b) = startOf (a ++ '/' :: b') := by
  by_cases ha : a = []
  · rw [ha]
    rfl
  · rw [startOf_append_of_ne_nil ha, startOf_append_of_ne_nil ha]

theorem normalize_congr (h : p.components = q.components) : p.normalize = q.normalize := by
  rw [normalize, normalize, h]

/-- A `..` takes back the name in front of it. -/
theorem foldl_pushComponent_taken (front : List Component) (s : String) (back : List Component) :
    (front ++ .name s :: .parent :: back).foldl pushComponent [] =
      (front ++ back).foldl pushComponent [] := by
  rw [List.foldl_append, List.foldl_append]
  rfl

/-- Every spelling of a path is normalised to the same path. -/
theorem Respelled.normalize_eq (h : Respelled p q) : p.normalize = q.normalize := by
  induction h with
  | @slash p q a b hp hq =>
      refine normalize_congr ?_
      rw [components_eq, components_eq, hp, hq, startOf_append a ('/' :: b) b, stepsOf_append,
        stepsOf_append, stepsOf_slash]
  | @closing p q a ha hp hq =>
      refine normalize_congr ?_
      rw [components_eq, components_eq, hp, hq, startOf_append_of_ne_nil ha, stepsOf_append]
      exact congrArg _ (List.append_nil _)
  | @dot p q a b hb hp hq =>
      have hdot : stepsOf ('.' :: b) = stepsOf b := stepsOf_piece ['.'] hb
      refine normalize_congr ?_
      rw [components_eq, components_eq, hp, hq, startOf_append a ('.' :: b) b, stepsOf_append,
        stepsOf_append, hdot]
  | @taken p q a s b hs hb hp hq =>
      have hparent : stepsOf ('.' :: '.' :: b) = .parent :: stepsOf b := stepsOf_piece ['.', '.'] hb
      have hcomponents : p.components =
          startOf q.text.toList ++ stepsOf a ++ .name s :: .parent :: stepsOf b := by
        rw [components_eq, hp, hq, startOf_append a _ b, stepsOf_append, stepsOf_append,
          stepsOf_name hs, hparent]
        simp
      rw [normalize, normalize, hcomponents, foldl_pushComponent_taken, components_eq q, hq,
        stepsOf_append, List.append_assoc]
  | refl => rfl
  | symm _ ih => exact ih.symm
  | trans _ _ ih ih' => exact ih.trans ih'

/-- What the names of a place make, the last one first. -/
def placeStack (l : Location) : List Component := (l.map Component.name).reverse ++ [.root]

theorem placeStack_append (l : Location) (s : String) :
    placeStack (l ++ [s]) = .name s :: placeStack l := by
  simp [placeStack]

theorem reverse_placeStack (l : Location) :
    (placeStack l).reverse = .root :: l.map Component.name := by
  simp [placeStack]

/-- Steps that stay below the root take the stack from one place to another. -/
theorem foldl_placeStack (h : placeFrom? l cs = some l') (hcs : ∀ c ∈ cs, c.IsStep) :
    cs.foldl pushComponent (placeStack l) = placeStack l' := by
  induction cs generalizing l with
  | nil =>
      cases h
      rfl
  | cons c cs ih =>
      have hrest : ∀ d ∈ cs, d.IsStep := fun d hd => hcs d (List.mem_cons_of_mem c hd)
      rw [List.foldl_cons]
      cases c with
      | root | current => exact (hcs _ List.mem_cons_self).elim
      | name s =>
          have hpush : pushComponent (placeStack l) (.name s) = placeStack (l ++ [s]) :=
            (placeStack_append l s).symm
          rw [hpush]
          exact ih h hrest
      | parent =>
          obtain rfl | ⟨front, s, rfl⟩ := l.eq_nil_or_concat
          · cases h
          · rw [List.concat_eq_append] at h ⊢
            rw [placeFrom?, if_neg (by simp), List.dropLast_concat] at h
            rw [placeStack_append]
            exact ih h hrest

theorem isProper_placeFrom? (h : placeFrom? l cs = some l') (hl : IsProper l)
    (hcs : ∀ c ∈ cs, c.IsStep) : IsProper l' := by
  induction cs generalizing l with
  | nil =>
      cases h
      exact hl
  | cons c cs ih =>
      have hrest : ∀ d ∈ cs, d.IsStep := fun d hd => hcs d (List.mem_cons_of_mem c hd)
      cases c with
      | root | current => exact (hcs _ List.mem_cons_self).elim
      | name s =>
          refine ih h (fun n hn => ?_) hrest
          obtain hn | hn := List.mem_append.mp hn
          · exact hl n hn
          · rw [List.mem_singleton.mp hn]
            exact hcs _ List.mem_cons_self
      | parent =>
          rw [placeFrom?] at h
          split at h
          · cases h
          · exact ih h (fun n hn => hl n (List.dropLast_subset l hn)) hrest

theorem isAbsolute_iff : p.isAbsolute = true ↔ startOf p.text.toList = [.root] := by
  rw [isAbsolute, beq_iff_eq, startOf]
  split
  · next h => simp [h]
  · next h =>
      refine iff_of_false h ?_
      split <;> simp

theorem components_of_isAbsolute (h : p.isAbsolute = true) :
    p.components = .root :: stepsOf p.text.toList := by
  rw [components_eq, isAbsolute_iff.mp h]
  rfl

theorem place?_eq_some_iff :
    p.place? = some l ↔ p.isAbsolute = true ∧ placeFrom? [] (stepsOf p.text.toList) = some l := by
  rw [place?]
  split
  · next h => simp [h, components_of_isAbsolute h, placeFrom?]
  · next h => simp [h]

theorem isProper_place? (h : p.place? = some l) : IsProper l :=
  isProper_placeFrom? (place?_eq_some_iff.mp h).2 (by simp [IsProper])
    fun _ hc => isStep_of_mem_stepsOf hc

theorem pathOf_inj (hl : IsProper l) (hl' : IsProper l') : pathOf l = pathOf l' ↔ l = l' := by
  refine ⟨fun h => ?_, fun h => by rw [h]⟩
  rw [← same_pathOf_iff hl hl', h]
  rfl

/-- The path of a place is made of the names that lead there. -/
theorem ofComponents_place (hl : IsProper l) :
    ofComponents (.root :: l.map Component.name) = pathOf l := by
  have hsteps : ∀ c ∈ l.map Component.name, c.IsStep := by
    intro c hc
    obtain ⟨s, hs, rfl⟩ := List.mem_map.mp hc
    exact hl s hs
  have htext : ∀ s (names : List String),
      s.toList ++ names.flatMap (fun s => '/' :: s.toList) =
        ['/'].intercalate ((s :: names).map String.toList) := by
    intro s names
    induction names generalizing s with
    | nil => simp
    | cons next names ih =>
        rw [List.flatMap_cons, List.cons_append, ih]
        simp only [List.map_cons, List.intercalate_cons_cons]
        simp
  apply eq_of_toList
  rw [toList_pathOf]
  cases l with
  | nil => rfl
  | cons s names =>
      rw [List.map_cons] at hsteps ⊢
      rw [toList_ofComponents_root (hsteps _ List.mem_cons_self)
        fun d hd => hsteps d (List.mem_cons_of_mem _ hd), ← htext, List.flatMap_map]
      rfl

/-- A path that never climbs above the root is normalised to the path of its place. -/
theorem normalize_eq_pathOf (h : p.place? = some l) : p.normalize = pathOf l := by
  obtain ⟨habsolute, hplace⟩ := place?_eq_some_iff.mp h
  have hstack := foldl_placeStack hplace fun c hc => isStep_of_mem_stepsOf hc
  have hfold : p.components.foldl pushComponent [] = placeStack l := by
    rw [components_of_isAbsolute habsolute]
    exact hstack
  rw [normalize, hfold, reverse_placeStack, ofComponents_place (isProper_place? h)]

theorem components_normalize (p : Path) :
    p.normalize.components = (p.components.foldl pushComponent []).reverse :=
  (isStack_components p).components_ofComponents

theorem IsStack.current_notMem (h : IsStack stack) : .current ∉ stack := by
  induction h with
  | nil | root => simp
  | parent hbottom => obtain rfl | rfl := hbottom <;> simp
  | name _ _ ih => simpa using ih

/-- On a stack no `..` lies above a name. -/
theorem IsStack.parent_notMem {s : String} {above below : List Component}
    (h : IsStack (above ++ .name s :: below)) : .parent ∉ above := by
  induction above with
  | nil => simp
  | cons c above ih =>
      rw [List.cons_append] at h
      generalize htail : above ++ .name s :: below = tail at h
      cases h with
      | root => simp at htail
      | parent hbottom =>
          obtain rfl | rfl := hbottom
          · simp at htail
          · cases above <;> simp at htail
      | name hs h => simpa using ih (htail ▸ h)

theorem IsStack.root_mem_push (h : IsStack stack) {c : Component} (hc : c.IsStep) :
    .root ∈ pushComponent stack c ↔ .root ∈ stack := by
  cases c with
  | root | current => exact hc.elim
  | name s => simp [pushComponent]
  | parent =>
      cases h with
      | nil | root => simp [pushComponent]
      | parent hbottom => obtain rfl | rfl := hbottom <;> simp [pushComponent]
      | name hs h => simp [pushComponent]

theorem IsStack.root_mem_foldl (h : IsStack stack) (hcs : ∀ c ∈ cs, c.IsStep) :
    .root ∈ cs.foldl pushComponent stack ↔ .root ∈ stack := by
  induction cs generalizing stack with
  | nil => rfl
  | cons c cs ih =>
      have hc : c.IsStep := hcs c List.mem_cons_self
      rw [List.foldl_cons, ih (h.push (.inl hc)) fun d hd => hcs d (List.mem_cons_of_mem c hd),
        h.root_mem_push hc]

theorem root_mem_components : .root ∈ p.components ↔ p.isAbsolute = true := by
  have hsteps : .root ∉ stepsOf p.text.toList := fun h => isStep_of_mem_stepsOf h
  rw [components_eq, List.mem_append, or_iff_left hsteps, isAbsolute_iff]
  unfold startOf
  split
  · simp
  · split <;> simp

theorem isAbsolute_normalize (p : Path) : p.normalize.isAbsolute = p.isAbsolute := by
  have hstart : IsStack ((startOf p.text.toList).foldl pushComponent []) ∧
      (.root ∈ (startOf p.text.toList).foldl pushComponent [] ↔ .root ∈ startOf p.text.toList) := by
    unfold startOf
    split
    · exact ⟨.root, by simp [pushComponent]⟩
    · split
      · exact ⟨.nil, by simp [pushComponent]⟩
      · exact ⟨.nil, by simp⟩
  have hsteps : .root ∉ stepsOf p.text.toList := fun h => isStep_of_mem_stepsOf h
  rw [Bool.eq_iff_iff, ← root_mem_components, ← root_mem_components, components_normalize,
    List.mem_reverse, components_eq, List.foldl_append,
    hstart.1.root_mem_foldl fun c hc => isStep_of_mem_stepsOf hc, hstart.2, List.mem_append,
    or_iff_left hsteps]

theorem isNormal_normalize (p : Path) : p.normalize.IsNormal := by
  have hstack := isStack_components p
  constructor
  · rw [components_normalize, List.mem_reverse]
    exact hstack.current_notMem
  · intro front s back heq
    rw [components_normalize, List.reverse_eq_iff] at heq
    rw [heq, List.reverse_append, List.reverse_cons, List.append_assoc] at hstack
    have hahead := hstack.parent_notMem
    rwa [List.mem_reverse] at hahead

end StyleBundler.Path

namespace StyleBundler

/-- A path that has a cell gets no other one. -/
theorem AssetStore.reserve_reserve (s : AssetStore) (path : Path) :
    (s.reserve path).reserve path = s.reserve path := by
  obtain ⟨c, cell, hcell, hsame⟩ := s.exists_cell_reserve path
  rw [reserve, if_pos]
  exact List.any_eq_true.mpr ⟨cell, List.mem_of_getElem? hcell, decide_eq_true hsame⟩

/-- The stylesheet at `path` is that of a specifier that names no package; beside its module the
specifier spells `p`. -/
def Resolve.Leads (t : FileTree) (p path : Path) : Prop :=
  ∃ specifier importer, isBare specifier = false ∧ p = (directoryOf importer).join ⟨specifier⟩ ∧
    stylesheet t specifier importer = .ok path

theorem Resolve.Leads.eq_normalize {t : FileTree} {p path : Path} (h : Leads t p path) :
    path = p.normalize := by
  obtain ⟨specifier, importer, hbare, rfl, h⟩ := h
  simp only [stylesheet, hbare, Bool.false_eq_true, if_false] at h
  split at h
  · cases h
    rfl
  · cases h

namespace Path

open FileTree

/-- Normalising gives a normal path, as absolute as before, and once is enough. For a path that
stays below the root it gives the path of its place, so it tells places apart and nothing else; all
spellings of a path are given the same one, under which a stylesheet has its cell. -/
theorem normalize_isNormal (p : Path) :
    p.normalize.IsNormal ∧ p.normalize.isAbsolute = p.isAbsolute ∧
      p.normalize.normalize = p.normalize ∧
      (∀ l, p.place? = some l → p.normalize = pathOf l ∧
        ∀ (q : Path) (l' : Location), q.place? = some l' → (p.normalize = q.normalize ↔ l = l')) ∧
      ∀ q : Path, p.Respelled q → p.normalize = q.normalize ∧
        ∀ t t' path path', Resolve.Leads t p path → Resolve.Leads t' q path' →
          path = path' ∧ ∀ s : AssetStore, (s.reserve path).reserve path' = s.reserve path := by
  refine ⟨isNormal_normalize p, isAbsolute_normalize p, normalize_normalize p, ?_, ?_⟩
  · intro l hl
    refine ⟨normalize_eq_pathOf hl, fun q l' hl' => ?_⟩
    rw [normalize_eq_pathOf hl, normalize_eq_pathOf hl',
      pathOf_inj (isProper_place? hl) (isProper_place? hl')]
  · intro q hq
    refine ⟨hq.normalize_eq, fun t t' path path' h h' => ?_⟩
    obtain rfl : path = path' := by rw [h.eq_normalize, h'.eq_normalize, hq.normalize_eq]
    exact ⟨rfl, fun s => s.reserve_reserve path⟩

def oneSheet : FileTree := (rooted ["src"]).place ["src", "a.css"] (.file "".toUTF8)

theorem respelled_sheet : Respelled ⟨"/src/../src/a.css"⟩ ⟨"/src/a.css"⟩ :=
  .trans (.taken [] "src" "/src/a.css".toList (by decide) (.inr rfl) (by decide)
      (q := ⟨"//src/a.css"⟩) (by decide))
    (.slash [] "src/a.css".toList (by decide) (by decide))

theorem normalize_isNormal_respelled :
    (⟨"/src/../src/a.css"⟩ : Path).place? = some ["src", "a.css"] ∧
      (⟨"/src/../src/a.css"⟩ : Path).normalize = pathOf ["src", "a.css"] ∧
      (⟨"/src/../src/a.css"⟩ : Path).Respelled ⟨"/src/a.css"⟩ ∧
      Resolve.Leads oneSheet ⟨"/src/../src/a.css"⟩ ⟨"/src/a.css"⟩ ∧
      Resolve.Leads oneSheet ⟨"/src/a.css"⟩ ⟨"/src/a.css"⟩ ∧
      ((AssetStore.empty false).reserve ⟨"/src/a.css"⟩).reserve ⟨"/src/a.css"⟩ =
        (AssetStore.empty false).reserve ⟨"/src/a.css"⟩ := by
  have hplace : (⟨"/src/../src/a.css"⟩ : Path).place? = some ["src", "a.css"] := by decide +kernel
  have hbeside : Resolve.Leads oneSheet ⟨"/src/../src/a.css"⟩ ⟨"/src/a.css"⟩ :=
    ⟨"../src/a.css", ⟨"/src/m.js"⟩, by decide +kernel, by decide +kernel, by decide +kernel⟩
  have habsolute : Resolve.Leads oneSheet ⟨"/src/a.css"⟩ ⟨"/src/a.css"⟩ :=
    ⟨"/src/a.css", ⟨"/src/n.js"⟩, by decide +kernel, by decide +kernel, by decide +kernel⟩
  obtain ⟨-, -, -, hof, hsame⟩ := normalize_isNormal ⟨"/src/../src/a.css"⟩
  exact ⟨hplace, (hof _ hplace).1, respelled_sheet, hbeside, habsolute,
    ((hsame _ respelled_sheet).2 _ _ _ _ hbeside habsolute).2 _⟩

end Path
end StyleBundler
