import StyleBundler.Content
import StyleBundler.Pack.Mode
import StyleBundler.Proofs.Script.Interpolation

/-!
Text in a template literal. Each sign is escaped where it stands, which is as good as replacing all
backslashes, then all backticks and then all openings of an interpolation (`escapeText_eq`). What
comes of it is the one chunk of a template (`readTemplate_escaped`), and in that chunk the escapes
can be undone again (`unescape_escape`).
-/

namespace StyleBundler

open Script Lexer

namespace Text

theorem replaceFrom_sign (p c : Char) (new cs : List Char) :
    replaceFrom [p] new 0 (c :: cs) =
      (if c = p then new else [c]) ++ replaceFrom [p] new 0 cs := by
  by_cases hc : c = p
  · simp [replaceFrom, after?, hc]
  · simp [replaceFrom, after?, hc, Ne.symm hc]

theorem replaceFrom_pair (p q : Char) (new cs : List Char) :
    replaceFrom [p, q] new 0 (p :: q :: cs) = new ++ replaceFrom [p, q] new 0 cs := by
  simp [replaceFrom, after?]

theorem replaceFrom_pair_other {p q c : Char} {cs : List Char} (h : ¬(c = p ∧ cs.head? = some q))
    (new : List Char) :
    replaceFrom [p, q] new 0 (c :: cs) = c :: replaceFrom [p, q] new 0 cs := by
  have hafter : after? [p, q] (c :: cs) = none := by
    rw [Option.eq_none_iff_forall_ne_some]
    intro rest hrest
    obtain ⟨rfl, rfl⟩ := List.cons.inj (after?_eq_some_iff.mp hrest)
    exact h ⟨rfl, rfl⟩
  simp [replaceFrom, hafter]

end Text

namespace TemplateLiteral

open Text

/-- Undoes backslash escapes: behind a backslash each character stands for itself. -/
def unescape : List Char → List Char
  | [] => []
  | ['\\'] => ['\\']
  | '\\' :: c :: cs => c :: unescape cs
  | c :: cs => c :: unescape cs

def unescapeText (s : String) : String := String.ofList (unescape s.toList)

theorem unescape_other {c : Char} (hc : c ≠ '\\') (cs : List Char) :
    unescape (c :: cs) = c :: unescape cs := by
  rw [unescape]
  · exact fun h _ => hc h
  · exact fun _ _ h _ => hc h

theorem unescape_escape (cs : List Char) : unescape (escape cs) = cs := by
  fun_induction escape cs with
  | case1 => rfl
  | case2 cs ih => rw [unescape, ih]
  | case3 cs ih => rw [unescape, ih]
  | case4 cs ih => rw [unescape, unescape_other (by decide), ih]
  | case5 c cs hback _ _ ih => rw [unescape_other hback, ih]

theorem unescapeText_escapeText (s : String) : unescapeText (escapeText s) = s := by
  rw [unescapeText, escapeText, String.toList_ofList, unescape_escape, String.ofList_toList]

/-- A text that is escaped starts with a brace only if it did before. -/
theorem head?_escape {cs : List Char} (h : (escape cs).head? = some '{') : cs.head? = some '{' := by
  fun_induction escape cs with
  | case5 c cs => exact h
  | _ => cases h

/-- An escaped text neither ends a template nor opens an interpolation. -/
theorem readTemplate_escaped (cs ds : List Char) :
    readTemplate (escape cs ++ '\x60' :: ds) = ⟨[escape cs], escape cs ++ ['\x60'], ds⟩ := by
  fun_induction escape cs with
  | case1 => exact readTemplate_close ds
  | case2 cs ih | case3 cs ih =>
      rw [List.cons_append, List.cons_append, readTemplate_escape, ih]
      rfl
  | case4 cs ih =>
      have hopen : ¬('{' = '$' ∧ (escape cs ++ '\x60' :: ds).head? = some '{') := by simp
      rw [List.cons_append, List.cons_append, List.cons_append, readTemplate_escape,
        readTemplate_other (by decide) (by decide) hopen, ih]
      rfl
  | case5 c cs hback htick hopen ih =>
      have hopen : ¬(c = '$' ∧ (escape cs ++ '\x60' :: ds).head? = some '{') := by
        rintro ⟨rfl, hhead⟩
        have hhead : (escape cs).head? = some '{' := by
          cases hescape : escape cs with
          | nil => simp [hescape] at hhead
          | cons d ds => simpa [hescape] using hhead
        obtain ⟨rest, rfl⟩ := List.head?_eq_some_iff.mp (head?_escape hhead)
        exact hopen rest rfl rfl
      rw [List.cons_append, readTemplate_other htick hback hopen, ih]
      rfl

/-- An escaped text between backticks is a template without interpolations. -/
theorem stands_escapeText (prior : Option TokenKind) (s : String) (ds : List Char) :
    Stands prior ⟨some (.template [escapeText s]), '\x60' :: (escape s.toList ++ ['\x60'])⟩ ds := by
  have hread : readTemplate (escape s.toList ++ ['\x60'] ++ ds) =
      ⟨[escape s.toList], escape s.toList ++ ['\x60'], ds⟩ := by
    rw [List.append_assoc]
    exact readTemplate_escaped s.toList ds
  exact stands_template prior hread

/-- The signs that are escaped wherever they stand. -/
def escapeSigns (cs : List Char) : List Char :=
  replaceFrom ['\x60'] ['\\', '\x60'] 0 (replaceFrom ['\\'] ['\\', '\\'] 0 cs)

@[simp] theorem escapeSigns_nil : escapeSigns [] = [] := rfl

@[simp] theorem escapeSigns_backslash (cs : List Char) :
    escapeSigns ('\\' :: cs) = '\\' :: '\\' :: escapeSigns cs := by
  simp [escapeSigns, replaceFrom_sign]

@[simp] theorem escapeSigns_backtick (cs : List Char) :
    escapeSigns ('\x60' :: cs) = '\\' :: '\x60' :: escapeSigns cs := by
  simp [escapeSigns, replaceFrom_sign]

theorem escapeSigns_other {c : Char} (hback : c ≠ '\\') (htick : c ≠ '\x60') (cs : List Char) :
    escapeSigns (c :: cs) = c :: escapeSigns cs := by
  simp [escapeSigns, replaceFrom_sign, hback, htick]

theorem head?_escapeSigns {cs : List Char} (h : (escapeSigns cs).head? = some '{') :
    cs.head? = some '{' := by
  cases cs with
  | nil => cases h
  | cons c cs =>
      by_cases hback : c = '\\'
      · simp [hback] at h
      by_cases htick : c = '\x60'
      · simp [htick] at h
      rwa [escapeSigns_other hback htick] at h

theorem escape_eq (cs : List Char) :
    escape cs = replaceFrom ['$', '{'] ['\\', '$', '{'] 0 (escapeSigns cs) := by
  fun_induction escape cs with
  | case1 => rfl
  | case2 cs ih | case3 cs ih => simp [replaceFrom_pair_other, ih]
  | case4 cs ih =>
      rw [escapeSigns_other (by decide) (by decide), escapeSigns_other (by decide) (by decide),
        replaceFrom_pair, ih]
      rfl
  | case5 c cs hback htick hopen ih =>
      have hopen : ¬(c = '$' ∧ (escapeSigns cs).head? = some '{') := by
        rintro ⟨rfl, hhead⟩
        obtain ⟨rest, rfl⟩ := List.head?_eq_some_iff.mp (head?_escapeSigns hhead)
        exact hopen rest rfl rfl
      rw [escapeSigns_other hback htick, replaceFrom_pair_other hopen, ih]

/-- Escaping sign by sign is three replacements, one after the other: none of them makes an
occurrence for the next one. -/
theorem escapeText_eq (s : String) :
    escapeText s = replaceAll "$\x7b" "\\$\x7b"
      (replaceAll "\x60" "\\\x60" (replaceAll "\\" "\\\\" s)) := by
  simp only [escapeText, replaceAll, String.toList_ofList]
  exact congrArg String.ofList (escape_eq s.toList)

end TemplateLiteral

end StyleBundler
