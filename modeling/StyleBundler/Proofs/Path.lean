import StyleBundler.Proofs.FileTree
import StyleBundler.Resolve

/-!
Normal paths. Normalising keeps a stack of components of one shape (`IsStack`), and the path made
of a stack has the components of the stack again. So normalising once is enough
(`normalize_normalize`), and two spellings of one path that are both normal are the same text
(`eq_of_same_normalize`). The files of stylesheet specifiers are found under such paths
(`Resolve.exists_normalize_of_stylesheet`).
-/

namespace StyleBundler.Path

open Text

theorem eq_of_toList {p q : Path} (h : p.text.toList = q.text.toList) : p = q := by
  cases p with
  | mk s =>
      cases q with
      | mk t => exact congrArg Path.mk (String.toList_inj.mp h)

theorem isAbsolute_of_noSlash {s : String} (h : '/' ∉ s.toList) :
    (⟨s⟩ : Path).isAbsolute = false := by
  rw [isAbsolute, beq_eq_false_iff_ne]
  exact fun hhead => h (List.mem_of_head? hhead)

/-- A component behind the start of a path. -/
def Component.IsStep : Component → Prop
  | .parent => True
  | .name s => FileTree.IsName s
  | .root | .current => False

namespace Component.IsStep

variable {c : Component} {cs : List Component}

theorem noSlash (h : c.IsStep) : '/' ∉ c.text.toList := by
  cases c with
  | parent => decide
  | name s => exact FileTree.IsName.noSlash h
  | root | current => exact h.elim

theorem notIdle (h : c.IsStep) : isIdle c.text.toList = false := by
  cases c with
  | parent => decide
  | name s => exact FileTree.IsName.notIdle h
  | root | current => exact h.elim

theorem pieceComponent_text (h : c.IsStep) : pieceComponent c.text.toList = c := by
  cases c with
  | parent => rfl
  | name s =>
      have hparent : s.toList ≠ ['.', '.'] := FileTree.IsName.notParent h
      simp [pieceComponent, text, hparent]
  | root | current => exact h.elim

theorem toList_ne_nil (h : c.IsStep) : c.text.toList ≠ [] := by
  intro hnil
  have hidle := h.notIdle
  rw [hnil] at hidle
  cases hidle

theorem of_piece {piece : List Char} (hidle : isIdle piece = false) (hslash : '/' ∉ piece) :
    (pieceComponent piece).IsStep := by
  unfold pieceComponent
  split
  · trivial
  · next hparent =>
      refine ⟨?_, ?_, ?_⟩ <;> rw [String.toList_ofList]
      · exact hidle
      · exact hparent
      · exact hslash

theorem join_eq (h : c.IsStep) {p : Path} (hp : p.text.toList ≠ [])
    (hlast : p.text.toList.getLast? ≠ some '/') :
    (p.join ⟨c.text⟩).text.toList = p.text.toList ++ '/' :: c.text.toList := by
  have hempty : p.text.isEmpty = false := by
    rw [Bool.eq_false_iff]
    intro htext
    rw [String.isEmpty_iff] at htext
    exact hp (by rw [htext]; rfl)
  rw [join, isAbsolute_of_noSlash h.noSlash, hempty, beq_eq_false_iff_ne.mpr hlast]
  simp [String.toList_append]

theorem getLast?_text_ne (h : c.IsStep) (front : List Char) :
    (front ++ c.text.toList).getLast? ≠ some '/' := by
  rw [List.getLast?_append]
  cases hlast : c.text.toList.getLast? with
  | none => exact absurd (List.getLast?_eq_none_iff.mp hlast) h.toList_ne_nil
  | some last =>
      intro heq
      cases heq
      exact h.noSlash (List.mem_of_getLast? hlast)

end Component.IsStep

/-- What normalising has put together, the last component first: at most one `..`, which stands at
the start. -/
inductive IsStack : List Component → Prop
  | nil : IsStack []
  | root : IsStack [.root]
  | parent {stack : List Component} (h : stack = [] ∨ stack = [.root]) : IsStack (.parent :: stack)
  | name {s : String} {stack : List Component} (hs : FileTree.IsName s) : IsStack stack → IsStack (.name s :: stack)

variable {cs stack : List Component} {p q : Path}

theorem toList_foldl_join (hcs : ∀ c ∈ cs, c.IsStep) (hp : p.text.toList ≠ [])
    (hlast : p.text.toList.getLast? ≠ some '/') :
    (cs.foldl (fun p c => p.join ⟨c.text⟩) p).text.toList =
      p.text.toList ++ cs.flatMap fun c => '/' :: c.text.toList := by
  induction cs generalizing p with
  | nil => simp
  | cons c cs ih =>
      have hc : c.IsStep := hcs c List.mem_cons_self
      have hjoin := hc.join_eq hp hlast
      have hnext := hc.getLast?_text_ne (p.text.toList ++ ['/'])
      rw [List.append_assoc, List.singleton_append, ← hjoin] at hnext
      rw [List.foldl_cons, ih (fun d hd => hcs d (List.mem_cons_of_mem _ hd)) ?_ hnext, hjoin,
        List.flatMap_cons, List.append_assoc]
      simp [hjoin]

/-- The text of a path that starts with a step, behind what has been written already. -/
theorem splitOn_steps {c : Component} (hc : c.IsStep) (hcs : ∀ c ∈ cs, c.IsStep) :
    splitOn '/' (c.text.toList ++ cs.flatMap fun c => '/' :: c.text.toList) =
      (c :: cs).map fun c => c.text.toList := by
  induction cs generalizing c with
  | nil => simpa using splitOn_of_notMem hc.noSlash
  | cons d cs ih =>
      rw [List.flatMap_cons, List.cons_append, splitOn_append_cons hc.noSlash,
        ih (hcs d List.mem_cons_self) fun d hd => hcs d (List.mem_cons_of_mem _ hd)]
      rfl

theorem map_pieceComponent_steps (hcs : ∀ c ∈ cs, c.IsStep) :
    ((cs.map fun c => c.text.toList).filter fun piece => !isIdle piece).map pieceComponent = cs := by
  induction cs with
  | nil => rfl
  | cons c cs ih =>
      have hc : c.IsStep := hcs c List.mem_cons_self
      rw [List.map_cons, List.filter_cons_of_pos (by simp [hc.notIdle]), List.map_cons,
        hc.pieceComponent_text, ih fun d hd => hcs d (List.mem_cons_of_mem _ hd)]

theorem components_ofComponents_steps (hcs : ∀ c ∈ cs, c.IsStep) :
    (ofComponents cs).components = cs := by
  cases cs with
  | nil => rfl
  | cons c cs =>
      have hc : c.IsStep := hcs c List.mem_cons_self
      have hrest : ∀ d ∈ cs, d.IsStep := fun d hd => hcs d (List.mem_cons_of_mem _ hd)
      have hfirst : (⟨""⟩ : Path).join ⟨c.text⟩ = ⟨c.text⟩ := by
        unfold join
        split
        · rfl
        · simp
      have htext : (ofComponents (c :: cs)).text.toList =
          c.text.toList ++ cs.flatMap fun c => '/' :: c.text.toList := by
        rw [ofComponents, List.foldl_cons, hfirst]
        exact toList_foldl_join hrest hc.toList_ne_nil (hc.getLast?_text_ne [])
      have hhead : (c.text.toList ++ cs.flatMap fun c => '/' :: c.text.toList).head? ≠ some '/' := by
        cases htoList : c.text.toList with
        | nil => exact absurd htoList hc.toList_ne_nil
        | cons x xs =>
            intro hx
            have hslash := hc.noSlash
            rw [htoList] at hslash
            cases hx
            exact hslash List.mem_cons_self
      have hdot : c.text.toList ≠ ['.'] := by
        intro hdot
        have hidle := hc.notIdle
        rw [hdot] at hidle
        cases hidle
      rw [components, htext, componentsOf, splitOn_steps hc hrest, if_neg hhead,
        map_pieceComponent_steps hcs]
      simp [hdot]

/-- The text of an absolute path has a slash in front of every step. -/
theorem toList_ofComponents_root {c : Component} (hc : c.IsStep) (hcs : ∀ d ∈ cs, d.IsStep) :
    (ofComponents (.root :: c :: cs)).text.toList =
      '/' :: (c.text.toList ++ cs.flatMap fun c => '/' :: c.text.toList) := by
  have hfirst : (((⟨""⟩ : Path).join ⟨Component.root.text⟩).join ⟨c.text⟩).text.toList =
      '/' :: c.text.toList := by
    have hroot : (⟨""⟩ : Path).join ⟨Component.root.text⟩ = ⟨"/"⟩ := by decide
    rw [hroot, join, isAbsolute_of_noSlash hc.noSlash]
    simp [String.toList_append]
  have hlast := hc.getLast?_text_ne ['/']
  rw [List.singleton_append, ← hfirst] at hlast
  rw [ofComponents, List.foldl_cons, List.foldl_cons,
    toList_foldl_join hcs (by simp [hfirst]) hlast, hfirst, List.cons_append]

theorem components_ofComponents_root (hcs : ∀ c ∈ cs, c.IsStep) :
    (ofComponents (.root :: cs)).components = .root :: cs := by
  cases cs with
  | nil => rfl
  | cons c cs =>
      have hc : c.IsStep := hcs c List.mem_cons_self
      have hrest : ∀ d ∈ cs, d.IsStep := fun d hd => hcs d (List.mem_cons_of_mem _ hd)
      rw [components, toList_ofComponents_root hc hrest, componentsOf, splitOn, if_pos rfl,
        splitOn_steps hc hrest, List.filter_cons_of_neg (by simp [isIdle]),
        map_pieceComponent_steps hcs]
      rfl

theorem IsStack.push (h : IsStack stack) {c : Component} (hc : c.IsStep ∨ c = .current) :
    IsStack (pushComponent stack c) := by
  cases c with
  | root => simp [Component.IsStep] at hc
  | current => exact h
  | name s => exact .name (hc.resolve_right (by simp)) h
  | parent =>
      cases h with
      | nil => exact .parent (.inl rfl)
      | root => exact .parent (.inr rfl)
      | parent hbottom =>
          obtain rfl | rfl := hbottom
          · exact .nil
          · exact .root
      | name hs h => exact h

theorem IsStack.foldl_push (h : IsStack stack) (hcs : ∀ c ∈ cs, c.IsStep) :
    IsStack (cs.foldl pushComponent stack) := by
  induction cs generalizing stack with
  | nil => exact h
  | cons c cs ih =>
      exact ih (h.push (.inl (hcs c List.mem_cons_self)))
        fun d hd => hcs d (List.mem_cons_of_mem _ hd)

/-- A stack is rebuilt from its own components. -/
theorem IsStack.foldl_reverse (h : IsStack stack) :
    stack.reverse.foldl pushComponent [] = stack := by
  induction h with
  | nil | root => rfl
  | parent hbottom =>
      obtain rfl | rfl := hbottom
      · rfl
      · rfl
  | name hs _ ih => rw [List.reverse_cons, List.foldl_append, ih]; rfl

theorem IsStack.exists_steps (h : IsStack stack) :
    ∃ steps : List Component, (∀ c ∈ steps, c.IsStep) ∧
      (stack.reverse = steps ∨ stack.reverse = .root :: steps) := by
  induction h with
  | nil => exact ⟨[], by simp, .inl rfl⟩
  | root => exact ⟨[], by simp, .inr rfl⟩
  | parent hbottom =>
      refine ⟨[.parent], by simp [Component.IsStep], ?_⟩
      obtain rfl | rfl := hbottom
      · exact .inl rfl
      · exact .inr rfl
  | @name s stack hs _ ih =>
      obtain ⟨steps, hsteps, hreverse⟩ := ih
      refine ⟨steps ++ [.name s], ?_, ?_⟩
      · intro c hc
        obtain hc | hc := List.mem_append.mp hc
        · exact hsteps c hc
        · rw [List.mem_singleton.mp hc]
          exact hs
      · rw [List.reverse_cons]
        exact hreverse.imp (fun h => by rw [h]) fun h => by rw [h, List.cons_append]

theorem IsStack.components_ofComponents (h : IsStack stack) :
    (ofComponents stack.reverse).components = stack.reverse := by
  obtain ⟨steps, hsteps, hreverse | hreverse⟩ := h.exists_steps
  · rw [hreverse, components_ofComponents_steps hsteps]
  · rw [hreverse, components_ofComponents_root hsteps]

/-- The component that a text starts with, if it is no step. -/
def startOf (cs : List Char) : List Component :=
  if cs.head? = some '/' then [.root]
  else if (splitOn '/' cs).head? = some ['.'] then [.current]
  else []

/-- The steps of a text. -/
def stepsOf (cs : List Char) : List Component :=
  ((splitOn '/' cs).filter fun piece => !isIdle piece).map pieceComponent

theorem components_eq (p : Path) :
    p.components = startOf p.text.toList ++ stepsOf p.text.toList := (rfl)

theorem isStep_of_mem_stepsOf {text : List Char} {c : Component} (h : c ∈ stepsOf text) :
    c.IsStep := by
  obtain ⟨piece, hpiece, rfl⟩ := List.mem_map.mp h
  obtain ⟨hsplit, hidle⟩ := List.mem_filter.mp hpiece
  exact .of_piece (by simpa using hidle) (notMem_of_mem_splitOn hsplit)

theorem isStack_components (p : Path) : IsStack (p.components.foldl pushComponent []) := by
  rw [components_eq, List.foldl_append]
  refine IsStack.foldl_push ?_ fun c hc => isStep_of_mem_stepsOf hc
  unfold startOf
  split
  · exact .root
  · split
    · exact .nil
    · exact .nil

theorem normalize_normalize (p : Path) : p.normalize.normalize = p.normalize := by
  have hstack := isStack_components p
  rw [normalize, normalize, hstack.components_ofComponents, hstack.foldl_reverse]

theorem eq_of_same_normalize (h : p.normalize.Same q.normalize) : p.normalize = q.normalize := by
  have hcomponents : p.normalize.components = q.normalize.components := h
  rw [← normalize_normalize p, ← normalize_normalize q, normalize, normalize.eq_def q.normalize,
    hcomponents]

end StyleBundler.Path

namespace StyleBundler.Resolve

variable {t : FileTree} {specifier : String} {importer path : Path}

theorem exists_normalize_of_relative? {base : Path} (h : relative? t [] base specifier = some path) :
    ∃ p : Path, path = p.normalize := by
  simp only [relative?, candidates, List.map_nil, ite_self, List.append_nil] at h
  have hpath := List.mem_of_find?_eq_some h
  exact ⟨_, List.mem_singleton.mp hpath⟩

theorem exists_normalize_of_packageStyle? {package : Path}
    (h : packageStyle? t package = .ok (some path)) : ∃ p : Path, path = p.normalize := by
  simp only [packageStyle?] at h
  split at h
  · split at h
    · cases h
    · split at h
      · cases h
      · rw [Except.ok.injEq] at h
        obtain ⟨specifier, -, hrelative⟩ := List.exists_of_findSome?_eq_some h
        exact exists_normalize_of_relative? hrelative
  · rw [Except.ok.injEq] at h
    exact exists_normalize_of_relative? h

theorem exists_normalize_of_inPackages? {packages : Path}
    (h : inPackages? t packages specifier = .ok (some path)) : ∃ p : Path, path = p.normalize := by
  simp only [inPackages?] at h
  split at h
  · cases h
  · split at h
    · split at h
      · rw [Except.ok.injEq] at h
        exact exists_normalize_of_relative? h
      · exact exists_normalize_of_packageStyle? h
    · cases h

theorem exists_normalize_of_package? {directories : List Path}
    (h : package? t specifier directories = .ok (some path)) : ∃ p : Path, path = p.normalize := by
  induction directories with
  | nil => cases h
  | cons directory above ih =>
      simp only [package?] at h
      split at h
      · cases hfound : inPackages? t (directory.join ⟨"node_modules"⟩) specifier with
        | error reason => simp [hfound, bind, Except.bind] at h
        | ok found =>
            simp only [hfound, bind, Except.bind] at h
            cases found with
            | none => exact ih h
            | some place =>
                cases h
                exact exists_normalize_of_inPackages? hfound
      · exact ih h

/-- The file of a stylesheet specifier is found under a normal path. -/
theorem exists_normalize_of_stylesheet (h : stylesheet t specifier importer = .ok path) :
    ∃ p : Path, path = p.normalize := by
  simp only [stylesheet] at h
  split at h
  · split at h
    · cases h
    · cases h
    · next place hplace =>
        split at h
        · cases h
          exact exists_normalize_of_package? hplace
        · cases h
  · split at h
    · cases h
      exact ⟨_, rfl⟩
    · cases h

/-- Two stylesheets under one path in two spellings were found under the same text. -/
theorem eq_of_same_stylesheet {specifier' : String} {importer' path' : Path}
    (h : stylesheet t specifier importer = .ok path)
    (h' : stylesheet t specifier' importer' = .ok path') (hsame : path.Same path') :
    path = path' := by
  obtain ⟨p, rfl⟩ := exists_normalize_of_stylesheet h
  obtain ⟨q, rfl⟩ := exists_normalize_of_stylesheet h'
  exact Path.eq_of_same_normalize hsame

end StyleBundler.Resolve
