import StyleBundler.Proofs.Path.Place

/-!
Relative paths that are normalised on their own. A relative path goes so many directories up and
then down by names (`Path.route`). Its normal path has the names, but of the steps up only one if
their number is odd and none if it is even (`components_normalize_route`). So behind a directory it
leads where the path itself does exactly when it goes up at most once
(`normalize_join_normalize_iff`).
-/

namespace StyleBundler.Path

open Text FileTree

variable {l l' : Location} {cs : List Component} {w p : Path}

/-- A way from a directory: so many directories up, then down by names. -/
structure Route where
  up : Nat
  down : List String
deriving DecidableEq, Repr

namespace Route

/-- Goes on by one component. A `..` takes back a name, or leads up if there is none. -/
def step (r : Route) : Component → Route
  | .name s => ⟨r.up, r.down ++ [s]⟩
  | .parent => if r.down.isEmpty then ⟨r.up + 1, []⟩ else ⟨r.up, r.down.dropLast⟩
  | .root | .current => r

def along (r : Route) (cs : List Component) : Route := cs.foldl step r

/-- Where the way leads from a place that is deep enough. -/
def placeFrom (r : Route) (l : Location) : Location := l.take (l.length - r.up) ++ r.down

/-- What normalising keeps of the way, the last component first. -/
def stack (r : Route) : List Component :=
  (r.down.map Component.name).reverse ++ List.replicate (r.up % 2) .parent

@[simp] theorem along_cons (r : Route) (c : Component) (cs : List Component) :
    r.along (c :: cs) = (r.step c).along cs := rfl

theorem step_taken (up : Nat) (names : List String) (s : String) :
    (⟨up, names ++ [s]⟩ : Route).step .parent = ⟨up, names⟩ := by
  simp [step]

/-- On the stack a `..` takes back another `..` as it does a name. -/
theorem pushComponent_stack (r : Route) {c : Component} (hc : c.IsStep) :
    pushComponent r.stack c = (r.step c).stack := by
  obtain ⟨up, down⟩ := r
  cases c with
  | root | current => exact hc.elim
  | name s => simp [pushComponent, stack, step]
  | parent =>
      obtain rfl | ⟨names, s, rfl⟩ := down.eq_nil_or_concat
      · obtain heven | hodd := Nat.mod_two_eq_zero_or_one up
        · have hnext : (up + 1) % 2 = 1 := by omega
          simp [stack, step, heven, hnext, pushComponent]
        · have hnext : (up + 1) % 2 = 0 := by omega
          simp [stack, step, hodd, hnext, pushComponent]
      · rw [List.concat_eq_append, step_taken]
        simp [stack, pushComponent]

theorem foldl_stack (r : Route) (hcs : ∀ c ∈ cs, c.IsStep) :
    cs.foldl pushComponent r.stack = (r.along cs).stack := by
  induction cs generalizing r with
  | nil => rfl
  | cons c cs ih =>
      rw [List.foldl_cons, r.pushComponent_stack (hcs c List.mem_cons_self),
        ih _ fun d hd => hcs d (List.mem_cons_of_mem c hd), along_cons]

/-- Components that stay below the root go up no further than that, and lead where their way
does. -/
theorem eq_placeFrom_along {r : Route} (hr : r.up ≤ l.length) (hcs : ∀ c ∈ cs, c.IsStep)
    (h : placeFrom? (r.placeFrom l) cs = some l') :
    (r.along cs).up ≤ l.length ∧ l' = (r.along cs).placeFrom l := by
  induction cs generalizing r with
  | nil =>
      cases h
      exact ⟨hr, rfl⟩
  | cons c cs ih =>
      have hrest : ∀ d ∈ cs, d.IsStep := fun d hd => hcs d (List.mem_cons_of_mem c hd)
      rw [along_cons]
      cases c with
      | root | current => exact (hcs _ List.mem_cons_self).elim
      | name s =>
          refine ih hr hrest ?_
          rwa [placeFrom?, placeFrom, List.append_assoc] at h
      | parent =>
          obtain ⟨up, down⟩ := r
          rw [placeFrom?] at h
          split at h
          · cases h
          · next hne =>
              obtain rfl | ⟨names, s, rfl⟩ := down.eq_nil_or_concat
              · have hlt : up < l.length := by
                  by_contra hge
                  simp [placeFrom, Nat.sub_eq_zero_of_le (Nat.le_of_not_lt hge)] at hne
                refine ih (r := ⟨up + 1, []⟩) hlt hrest ?_
                have hdrop : (placeFrom ⟨up, []⟩ l).dropLast = placeFrom ⟨up + 1, []⟩ l := by
                  simp only [placeFrom, List.append_nil]
                  rw [List.dropLast_eq_take, List.length_take, List.take_take]
                  congr 1
                  omega
                rwa [hdrop] at h
              · rw [List.concat_eq_append] at h ⊢
                rw [step_taken]
                refine ih hr hrest ?_
                rwa [placeFrom, ← List.append_assoc, List.dropLast_concat] at h

end Route

/-- The way that a relative path goes. -/
def route (p : Path) : Route := Route.along ⟨0, []⟩ p.components

theorem placeFrom?_names (l : Location) (names : List String) (cs : List Component) :
    placeFrom? l (names.map .name ++ cs) = placeFrom? (l ++ names) cs := by
  induction names generalizing l with
  | nil => simp
  | cons s names ih =>
      rw [List.map_cons, List.cons_append, placeFrom?, ih, List.append_assoc]
      rfl

theorem placeFrom?_parents {k : Nat} (hk : k ≤ l.length) (cs : List Component) :
    placeFrom? l (List.replicate k .parent ++ cs) = placeFrom? (l.take (l.length - k)) cs := by
  induction k generalizing l with
  | zero => simp
  | succ k ih =>
      have hne : ¬l.isEmpty = true := by
        rw [List.isEmpty_iff]
        rintro rfl
        simp at hk
      rw [List.replicate_succ, List.cons_append, placeFrom?, if_neg hne,
        ih (by rw [List.length_dropLast]; omega), List.length_dropLast, List.dropLast_eq_take,
        List.take_take]
      congr 2
      omega

/-- What was kept of a way leads as it says. -/
theorem placeFrom?_stack (r : Route) (hr : r.up % 2 ≤ l.length) :
    placeFrom? l r.stack.reverse = some (Route.placeFrom ⟨r.up % 2, r.down⟩ l) := by
  rw [Route.stack, List.reverse_append, List.reverse_reverse, List.reverse_replicate,
    placeFrom?_parents hr, ← List.append_nil (r.down.map _), placeFrom?_names]
  rfl

theorem startOf_of_relative (hp : p.isAbsolute = false) :
    startOf p.text.toList = [] ∨ startOf p.text.toList = [.current] := by
  have hroot : ¬startOf p.text.toList = [.root] := by rw [← isAbsolute_iff, hp]; simp
  unfold startOf at hroot ⊢
  split
  · next h => exact absurd (if_pos h) hroot
  · split
    · exact .inr rfl
    · exact .inl rfl

/-- A dot at the start of a relative path leads nowhere. -/
theorem placeFrom?_components (hp : p.isAbsolute = false) (l : Location) :
    placeFrom? l p.components = placeFrom? l (stepsOf p.text.toList) := by
  rw [components_eq]
  obtain h | h := startOf_of_relative hp <;> rw [h] <;> rfl

theorem route_eq (hp : p.isAbsolute = false) :
    p.route = Route.along ⟨0, []⟩ (stepsOf p.text.toList) := by
  rw [route, components_eq]
  obtain h | h := startOf_of_relative hp <;> rw [h] <;> rfl

/-- The normal path of a relative one. -/
theorem components_normalize_route (hp : p.isAbsolute = false) :
    p.normalize.components = p.route.stack.reverse := by
  have hfold : p.components.foldl pushComponent [] =
      (stepsOf p.text.toList).foldl pushComponent [] := by
    rw [components_eq]
    obtain h | h := startOf_of_relative hp <;> rw [h] <;> rfl
  rw [components_normalize, hfold, route_eq hp]
  exact congrArg List.reverse (Route.foldl_stack ⟨0, []⟩ fun c hc => isStep_of_mem_stepsOf hc)

/-- Behind a directory stand the steps of the path. -/
theorem components_join (hw : w.isAbsolute = true) (hp : p.isAbsolute = false) :
    (w.join p).components = w.components ++ stepsOf p.text.toList := by
  have hne : w.text.toList ≠ [] := by
    rintro h
    simp [isAbsolute, h] at hw
  have hempty : w.text.isEmpty = false := by
    rw [Bool.eq_false_iff]
    intro htext
    rw [String.isEmpty_iff] at htext
    exact hne (by rw [htext]; rfl)
  rw [join, hp, hempty, Bool.false_or]
  simp only [Bool.false_eq_true, if_false]
  split
  · next hlast =>
      obtain ⟨front, hfront⟩ := List.getLast?_eq_some_iff.mp (beq_iff_eq.mp hlast)
      have htext : (w.text ++ p.text).toList = front ++ '/' :: p.text.toList := by
        rw [String.toList_append, hfront, List.append_assoc]
        rfl
      have hclosed : stepsOf (front ++ ['/']) = stepsOf front :=
        (stepsOf_append front []).trans (List.append_nil _)
      rw [components_eq, components_eq w, htext, hfront, startOf_append front _ [],
        stepsOf_append, hclosed, List.append_assoc]
  · have htext : (w.text ++ "/" ++ p.text).toList = w.text.toList ++ '/' :: p.text.toList := by
      simp [String.toList_append]
    rw [components_eq, components_eq w, htext, startOf_append_of_ne_nil hne, stepsOf_append,
      List.append_assoc]

theorem place?_join (hw : w.components = .root :: l.map .name) (hp : p.isAbsolute = false) :
    (w.join p).place? = placeFrom? l p.components := by
  have habsolute : w.isAbsolute = true := by
    rw [← root_mem_components, hw]
    exact List.mem_cons_self
  have hcomponents := components_join habsolute hp
  have hjoin : (w.join p).isAbsolute = true := by
    rw [← root_mem_components, hcomponents, hw]
    exact List.mem_cons_self
  rw [place?, if_pos hjoin, hcomponents, hw, List.cons_append, placeFrom?, placeFrom?_names,
    List.nil_append, placeFrom?_components hp]

/-- Behind a directory, the normal path of a relative one leads as far up as an odd or even number
of steps says, so it leads where the path does exactly when that goes up at most once. -/
theorem normalize_join_normalize_iff (hw : w.components = .root :: l.map .name)
    (hp : p.isAbsolute = false) (h : placeFrom? l p.components = some l') :
    (w.join p).normalize = pathOf (p.route.placeFrom l) ∧
      (w.join p.normalize).normalize = pathOf (Route.placeFrom ⟨p.route.up % 2, p.route.down⟩ l) ∧
      ((w.join p.normalize).normalize = (w.join p).normalize ↔ p.route.up ≤ 1) := by
  have hplace : (w.join p).place? = some l' := by rw [place?_join hw hp, h]
  rw [placeFrom?_components hp] at h
  obtain ⟨hup, rfl⟩ := Route.eq_placeFrom_along (r := ⟨0, []⟩) (Nat.zero_le _)
    (fun c hc => isStep_of_mem_stepsOf hc) (by simpa [Route.placeFrom] using h)
  rw [← route_eq hp] at hup hplace
  have hkept : p.route.up % 2 ≤ l.length := Nat.le_trans (Nat.mod_le _ _) hup
  have hrelative : p.normalize.isAbsolute = false := by rw [isAbsolute_normalize, hp]
  have hnormal : (w.join p.normalize).place? =
      some (Route.placeFrom ⟨p.route.up % 2, p.route.down⟩ l) := by
    rw [place?_join hw hrelative, components_normalize_route hp, placeFrom?_stack _ hkept]
  rw [normalize_eq_pathOf hplace, normalize_eq_pathOf hnormal]
  refine ⟨rfl, rfl, ?_⟩
  rw [pathOf_inj (isProper_place? hnormal) (isProper_place? hplace), Route.placeFrom,
    Route.placeFrom, List.append_cancel_right_eq]
  constructor
  · intro htake
    have hlength := congrArg List.length htake
    simp only [List.length_take] at hlength
    omega
  · intro hone
    rw [Nat.mod_eq_of_lt (by omega : p.route.up < 2)]

theorem normalize_join_normalize_iff_once :
    ((⟨"/w/x"⟩ : Path).components = [.root, .name "w", .name "x"] ∧
      (⟨"lib/.././../a.css"⟩ : Path).isAbsolute = false ∧
      placeFrom? ["w", "x"] (⟨"lib/.././../a.css"⟩ : Path).components = some ["w", "a.css"]) ∧
    (⟨"lib/.././../a.css"⟩ : Path).route = ⟨1, ["a.css"]⟩ ∧
    ((⟨"/w/x"⟩ : Path).join (⟨"lib/.././../a.css"⟩ : Path).normalize).normalize =
      ((⟨"/w/x"⟩ : Path).join ⟨"lib/.././../a.css"⟩).normalize := by
  have hw : (⟨"/w/x"⟩ : Path).components = .root :: ["w", "x"].map .name := by decide +kernel
  have hp : (⟨"lib/.././../a.css"⟩ : Path).isAbsolute = false := by decide +kernel
  have hplace : placeFrom? ["w", "x"] (⟨"lib/.././../a.css"⟩ : Path).components =
      some ["w", "a.css"] := by
    decide +kernel
  have hroute : (⟨"lib/.././../a.css"⟩ : Path).route = ⟨1, ["a.css"]⟩ := by decide +kernel
  exact ⟨⟨hw, hp, hplace⟩, hroute,
    (normalize_join_normalize_iff hw hp hplace).2.2.mpr (hroute ▸ Nat.le_refl 1)⟩

/-- Of two steps up nothing is left in the normal path, which so leads to a file beside the
directory instead of above it. -/
theorem normalize_join_normalize_twice :
    (⟨"/w/x"⟩ : Path).components = [.root, .name "w", .name "x"] ∧
      (⟨"../../a"⟩ : Path).isAbsolute = false ∧
      placeFrom? ["w", "x"] (⟨"../../a"⟩ : Path).components = some ["a"] ∧
      (⟨"../../a"⟩ : Path).normalize = ⟨"a"⟩ ∧
      ((⟨"/w/x"⟩ : Path).join (⟨"../../a"⟩ : Path).normalize).normalize = ⟨"/w/x/a"⟩ ∧
      ((⟨"/w/x"⟩ : Path).join ⟨"../../a"⟩).normalize = ⟨"/a"⟩ := by
  decide +kernel

end StyleBundler.Path
