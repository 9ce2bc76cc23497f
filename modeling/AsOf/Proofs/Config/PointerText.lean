import AsOf.Config.Unused
import Mathlib.Data.List.Basic
import Mathlib.Data.List.Induction

namespace AsOf

namespace Pointer

variable {a b cs part : List Char} {c : Char} {p q s : Pointer} {step : String}

theorem replaceEscape_cons (digit char : Char) (h : c ≠ '~') (cs : List Char) :
    replaceEscape digit char (c :: cs) = c :: replaceEscape digit char cs := by
  cases cs with
  | nil => rfl
  | cons d rest => rw [replaceEscape, if_neg fun hand => h hand.1]

def escapeTildes : List Char → List Char
  | [] => []
  | c :: rest => if c = '~' then '~' :: '0' :: escapeTildes rest else c :: escapeTildes rest

theorem replaceEscape_escape (cs : List Char) :
    replaceEscape '1' '/' (escape cs) = escapeTildes cs := by
  induction cs with
  | nil => rfl
  | cons c rest ih =>
    rw [escape, escapeTildes]
    split
    · rw [replaceEscape, if_neg (by decide), replaceEscape_cons _ _ (by decide), ih]
    · split
      · rename_i hslash
        rw [replaceEscape, if_pos ⟨rfl, rfl⟩, ih, hslash]
      · rename_i htilde _
        rw [replaceEscape_cons _ _ htilde, ih]

theorem replaceEscape_escapeTildes (cs : List Char) :
    replaceEscape '0' '~' (escapeTildes cs) = cs := by
  induction cs with
  | nil => rfl
  | cons c rest ih =>
    rw [escapeTildes]
    split
    · rename_i htilde
      rw [replaceEscape, if_pos ⟨rfl, rfl⟩, ih, htilde]
    · rename_i htilde
      rw [replaceEscape_cons _ _ htilde, ih]

theorem unescape_escape (cs : List Char) : unescape (escape cs) = cs := by
  rw [unescape, replaceEscape_escape, replaceEscape_escapeTildes]

theorem slash_not_mem_escape (cs : List Char) : '/' ∉ escape cs := by
  induction cs with
  | nil => exact List.not_mem_nil
  | cons c rest ih =>
    rw [escape]
    split
    · simpa using ih
    · split
      · simpa using ih
      · rename_i hslash
        simpa [Ne.symm hslash] using ih

def escapeStep (step : String) : List Char := escape step.toList

theorem escapeStep_injective : Function.Injective escapeStep := by
  intro step step' h
  have hread := congrArg unescape h
  rw [escapeStep, escapeStep, unescape_escape, unescape_escape] at hread
  exact String.toList_injective hread

theorem chars_append (p q : Pointer) : chars (p ++ q) = chars p ++ chars q :=
  List.flatMap_append

theorem chars_concat (p : Pointer) (step : String) :
    chars (p ++ [step]) = chars p ++ '/' :: escapeStep step := by
  rw [chars_append]
  exact congrArg (chars p ++ ·) (List.append_nil _)

theorem toList_text (p : Pointer) : p.text.toList = chars p := String.toList_ofList

theorem splitSlashes_ne_nil (cs : List Char) : splitSlashes cs ≠ [] := by
  cases cs with
  | nil => exact List.cons_ne_nil _ _
  | cons c rest =>
    rw [splitSlashes]
    split
    · exact List.cons_ne_nil _ _
    · split <;> exact List.cons_ne_nil _ _

theorem splitSlashes_append (a b : List Char) :
    splitSlashes (a ++ '/' :: b) = splitSlashes a ++ splitSlashes b := by
  induction a with
  | nil => rfl
  | cons c a ih =>
    rw [List.cons_append, splitSlashes, splitSlashes, ih]
    split
    · rfl
    · cases ha : splitSlashes a with
      | nil => exact absurd ha (splitSlashes_ne_nil a)
      | cons part parts => rfl

theorem splitSlashes_eq_self (h : '/' ∉ part) : splitSlashes part = [part] := by
  induction part with
  | nil => rfl
  | cons c rest ih =>
    obtain ⟨hc, hrest⟩ := not_or.mp (mt List.mem_cons.mpr h)
    rw [splitSlashes, if_neg (Ne.symm hc), ih hrest]

theorem splitSlashes_chars (p : Pointer) : splitSlashes (chars p) = [] :: p.map escapeStep := by
  induction p using List.reverseRecOn with
  | nil => rfl
  | append_singleton p step ih =>
    have hstep : splitSlashes (escapeStep step) = [escapeStep step] :=
      splitSlashes_eq_self (slash_not_mem_escape _)
    rw [chars_concat, splitSlashes_append, ih, hstep, List.map_append]
    rfl

theorem parse?_text (p : Pointer) : parse? p.text = some p := by
  cases p with
  | nil => rfl
  | cons step rest =>
    have hsplit := splitSlashes_chars (step :: rest)
    have hchars : chars (step :: rest) = '/' :: (escapeStep step ++ chars rest) := rfl
    rw [hchars, splitSlashes, if_pos rfl] at hsplit
    rw [parse?, toList_text, hchars]
    change some ((splitSlashes (escapeStep step ++ chars rest)).map _) = _
    rw [(List.cons.inj hsplit).2, List.map_map]
    refine congrArg some ((List.map_congr_left fun step _ => ?_).trans (List.map_id _))
    rw [Function.comp_apply, escapeStep, unescape_escape, String.ofList_toList, id]

theorem text_injective : Function.Injective text := by
  intro p q h
  have hread := congrArg parse? h
  rw [parse?_text, parse?_text] at hread
  exact Option.some.inj hread

theorem prefix_iff_chars : s <+: p ↔ chars p = chars s ∨ chars s ++ ['/'] <+: chars p := by
  constructor
  · rintro ⟨rest, rfl⟩
    rw [chars_append]
    cases rest with
    | nil => exact .inl (List.append_nil _)
    | cons step rest =>
      refine .inr ⟨escapeStep step ++ chars rest, ?_⟩
      rw [List.append_assoc]
      rfl
  · rintro (he | ⟨rest, he⟩)
    · have htext : p.text = s.text := congrArg String.ofList he
      exact text_injective htext ▸ List.prefix_rfl
    · -- The slash after the text of `s` separates its steps from those that follow.
      have hsplit := congrArg splitSlashes he
      rw [List.append_assoc, List.singleton_append, splitSlashes_append, splitSlashes_chars,
        splitSlashes_chars, List.cons_append] at hsplit
      obtain ⟨s', rest', rfl, hs, -⟩ := List.map_eq_append_iff.mp (List.cons.inj hsplit).2.symm
      rw [← escapeStep_injective.list_map hs]
      exact List.prefix_append s' rest'

theorem leafText_of_ne_nil (h : p ≠ []) : p.leafText = p.text :=
  if_neg (mt List.isEmpty_iff.mp h)

theorem coversText_text (h : 1 < s.length) : coversText s.text p.text ↔ s <+: p := by
  have hslash : ¬s.text = "/" := by
    intro he
    obtain rfl : s = [""] := text_injective he
    exact absurd h (by decide)
  have htext : p.text = s.text ↔ chars p = chars s :=
    ⟨fun he => String.ofList_injective he, congrArg String.ofList⟩
  rw [coversText, prefix_iff_chars]
  simp only [Bool.or_eq_true, decide_eq_true_eq, hslash, false_or, htext,
    List.isPrefixOf_iff_prefix, toList_text]

theorem coversText_leafText (h : 1 < s.length) : coversText s.text p.leafText ↔ s <+: p := by
  cases p with
  | nil =>
    have hroot : coversText s.text (text [""]) ↔ s <+: [""] := coversText_text h
    have hlong (q : Pointer) (hq : q.length ≤ 1) : ¬s <+: q := fun hs =>
      Nat.not_lt.mpr (Nat.le_trans hs.length_le hq) h
    exact hroot.trans (iff_of_false (hlong [""] (Nat.le_refl 1)) (hlong [] (Nat.zero_le 1)))
  | cons step rest =>
    rw [leafText_of_ne_nil (List.cons_ne_nil step rest)]
    exact coversText_text h

end Pointer

end AsOf
