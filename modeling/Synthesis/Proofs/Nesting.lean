import Synthesis.Proofs.Lines
import Synthesis.Proofs.ParamText

/-!
Nested brackets in signatures. A type closes the brackets it opens and has its commas inside them.
Counting all brackets alike, a list of parameters is then cut between its members only, and
counting parentheses alone, the one that closes the list is found behind the last of them.
-/
namespace Synthesis.Signature

open Text

/-- The bracket that closes an opening one. -/
def closer? : Char → Option Char
  | '(' => some ')'
  | '[' => some ']'
  | '<' => some '>'
  | '{' => some '}'
  | _ => none

/-- What is opened is closed again, the innermost bracket first, and commas stand inside brackets
only. What is open at the beginning is to be closed by the awaited brackets. -/
inductive Nests : List Char → List Char → Prop
  | done : Nests [] []
  | opens {c d : Char} {awaited cs : List Char} (hc : closer? c = some d)
      (h : Nests (d :: awaited) cs) : Nests awaited (c :: cs)
  | closes {c : Char} {awaited cs : List Char} (hc : isClosing c = true)
      (h : Nests awaited cs) : Nests (c :: awaited) (c :: cs)
  | other {c : Char} {awaited cs : List Char} (hopening : isOpening c = false)
      (hclosing : isClosing c = false) (hcomma : c = ',' → awaited ≠ [])
      (h : Nests awaited cs) : Nests awaited (c :: cs)

def nests : List Char → List Char → Bool
  | awaited, [] => awaited.isEmpty
  | awaited, c :: cs =>
    match closer? c with
    | some d => nests (d :: awaited) cs
    | none =>
      if isClosing c then awaited.head? == some c && nests awaited.tail cs
      else (c != ',' || !awaited.isEmpty) && nests awaited cs

theorem isOpening_iff {c : Char} : isOpening c = true ↔ ∃ d, closer? c = some d := by
  unfold closer?
  split <;> simp_all [isOpening]

theorem isClosing_of_closer? {c d : Char} (h : closer? c = some d) :
    isClosing c = false ∧ isClosing d = true ∧ (c = '(' ↔ d = ')') ∧ c ≠ ')' := by
  unfold closer? at h
  split at h <;> cases h <;> decide

theorem closer?_eq_none_iff {c : Char} : closer? c = none ↔ isOpening c = false := by
  rw [Bool.eq_false_iff, Ne, isOpening_iff, Option.eq_none_iff_forall_ne_some]
  exact not_exists.symm

theorem not_isOpening_of_isClosing {c : Char} (h : isClosing c = true) : isOpening c = false := by
  rw [Bool.eq_false_iff, Ne, isOpening_iff]
  rintro ⟨d, hd⟩
  rw [(isClosing_of_closer? hd).1] at h
  cases h

theorem nests_iff {awaited cs : List Char} : nests awaited cs = true ↔ Nests awaited cs := by
  constructor
  · intro h
    induction cs generalizing awaited with
    | nil =>
      rw [nests, List.isEmpty_iff] at h
      subst h
      exact .done
    | cons c cs ih =>
      unfold nests at h
      split at h
      next d hd => exact .opens hd (ih h)
      next hnone =>
        have hopening := closer?_eq_none_iff.mp hnone
        split at h
        next hclosing =>
          obtain ⟨hhead, hrest⟩ := Bool.and_eq_true_iff.mp h
          obtain ⟨rest, rfl⟩ := List.head?_eq_some_iff.mp (eq_of_beq hhead)
          exact .closes hclosing (ih hrest)
        next hclosing =>
          obtain ⟨hcomma, hrest⟩ := Bool.and_eq_true_iff.mp h
          refine .other hopening (by simpa using hclosing) ?_ (ih hrest)
          rintro rfl rfl
          simp at hcomma
  · intro h
    induction h with
    | done => rfl
    | opens hc _ ih => rw [nests, hc]; exact ih
    | @closes c awaited cs hc _ ih =>
      have hnone := closer?_eq_none_iff.mpr (not_isOpening_of_isClosing hc)
      simp [nests, hnone, hc, ih]
    | @other c awaited cs hopening hclosing hcomma _ ih =>
      have hnone := closer?_eq_none_iff.mpr hopening
      by_cases hc : c = ','
      · simp [nests, hnone, hclosing, ih, hcomma hc]
      · simp [nests, hnone, hclosing, ih, hc]

instance (awaited cs : List Char) : Decidable (Nests awaited cs) :=
  decidable_of_iff (nests awaited cs = true) nests_iff

/-- How many more brackets a text opens than it closes. -/
def level (cs : List Char) : Int := cs.foldl nested 0

theorem nested_eq (depth : Int) (c : Char) : nested depth c = depth + nested 0 c := by
  unfold nested
  split
  · omega
  · split <;> omega

theorem foldl_nested (depth : Int) (cs : List Char) : cs.foldl nested depth = depth + level cs := by
  induction cs generalizing depth with
  | nil => simp [level]
  | cons c cs ih =>
    rw [level, List.foldl_cons, List.foldl_cons, ih, ih, nested_eq depth]
    omega

theorem level_nil : level [] = 0 := rfl

theorem level_cons (c : Char) (cs : List Char) : level (c :: cs) = nested 0 c + level cs := by
  rw [level, List.foldl_cons, foldl_nested]

theorem level_append (cs ds : List Char) : level (cs ++ ds) = level cs + level ds := by
  rw [level, List.foldl_append, foldl_nested]
  rfl

theorem nested_of_opening {c d : Char} (h : closer? c = some d) : nested 0 c = 1 := by
  rw [nested, if_pos (isOpening_iff.mpr ⟨d, h⟩)]
  rfl

theorem nested_of_closing {c : Char} (h : isClosing c = true) : nested 0 c = -1 := by
  rw [nested, if_neg (by simp [not_isOpening_of_isClosing h]), if_pos h]
  rfl

theorem nested_of_other {c : Char} (hopening : isOpening c = false)
    (hclosing : isClosing c = false) : nested 0 c = 0 := by
  rw [nested, if_neg (by simp [hopening]), if_neg (by simp [hclosing])]

/-- All brackets that were open get closed. -/
theorem Nests.level_eq {awaited cs : List Char} (h : Nests awaited cs) :
    level cs = -awaited.length := by
  induction h with
  | done => rfl
  | opens hc _ ih =>
    rw [level_cons, nested_of_opening hc, ih, List.length_cons]
    omega
  | closes hc _ ih =>
    rw [level_cons, nested_of_closing hc, ih, List.length_cons]
    omega
  | other hopening hclosing _ _ ih =>
    rw [level_cons, nested_of_other hopening hclosing, ih, Int.zero_add]

/-- A comma of the text stands behind so many brackets that are still open. -/
def CommaAt (n : Int) (cs : List Char) : Prop :=
  ∃ front back, cs = front ++ ',' :: back ∧ level front = n

theorem not_commaAt_of_notMem {cs : List Char} (h : ',' ∉ cs) (n : Int) : ¬ CommaAt n cs := by
  rintro ⟨front, back, rfl, _⟩
  simp at h

theorem commaAt_cons {n : Int} {c : Char} {cs : List Char} :
    CommaAt n (c :: cs) ↔ c = ',' ∧ n = 0 ∨ CommaAt (n - nested 0 c) cs := by
  constructor
  · rintro ⟨front, back, heq, hn⟩
    cases front with
    | nil =>
      obtain ⟨rfl, _⟩ := List.cons.inj heq
      exact Or.inl ⟨rfl, hn.symm⟩
    | cons d front =>
      obtain ⟨rfl, rfl⟩ := List.cons.inj heq
      rw [level_cons] at hn
      exact Or.inr ⟨front, back, rfl, by omega⟩
  · rintro (⟨rfl, rfl⟩ | ⟨front, back, rfl, hn⟩)
    · exact ⟨[], cs, rfl, rfl⟩
    · refine ⟨c :: front, back, rfl, ?_⟩
      rw [level_cons]
      omega

theorem commaAt_append {n : Int} {cs ds : List Char} :
    CommaAt n (cs ++ ds) ↔ CommaAt n cs ∨ CommaAt (n - level cs) ds := by
  induction cs generalizing n with
  | nil =>
    have hnone : ¬ CommaAt n [] := not_commaAt_of_notMem List.not_mem_nil n
    simp [hnone, level_nil]
  | cons c cs ih =>
    have hrest : n - level (c :: cs) = n - nested 0 c - level cs := by
      rw [level_cons]
      omega
    rw [List.cons_append, commaAt_cons, commaAt_cons, ih, hrest, or_assoc]

/-- Commas stand inside of what is open. -/
theorem Nests.lt_of_commaAt {awaited cs : List Char} (h : Nests awaited cs) {n : Int}
    (hcomma : CommaAt n cs) : 0 < awaited.length + n := by
  induction h generalizing n with
  | done => exact absurd hcomma (not_commaAt_of_notMem List.not_mem_nil n)
  | opens hc _ ih =>
    rcases commaAt_cons.mp hcomma with ⟨rfl, _⟩ | hcomma
    · cases hc
    · have hinside := ih hcomma
      rw [nested_of_opening hc, List.length_cons] at hinside
      omega
  | closes hc _ ih =>
    rcases commaAt_cons.mp hcomma with ⟨rfl, _⟩ | hcomma
    · cases hc
    · have hinside := ih hcomma
      rw [nested_of_closing hc] at hinside
      rw [List.length_cons]
      omega
  | other hopening hclosing hawaited _ ih =>
    rcases commaAt_cons.mp hcomma with ⟨rfl, rfl⟩ | hcomma
    · have hsome := List.length_pos_iff.mpr (hawaited rfl)
      omega
    · have hinside := ih hcomma
      rw [nested_of_other hopening hclosing] at hinside
      omega

/-- A text in which no comma is met at depth zero belongs to one piece. -/
theorem splitTop_append (depth : Int) {cs : List Char} (h : ¬ CommaAt (-depth) cs)
    (rest : List Char) :
    splitTop depth (cs ++ rest) = (splitTop (depth + level cs) rest).modifyHead (cs ++ ·) := by
  induction cs generalizing depth with
  | nil =>
    rw [level_nil, Int.add_zero, List.nil_append]
    cases splitTop depth rest with
    | nil => rfl
    | cons w ws => rfl
  | cons c cs ih =>
    obtain ⟨hhere, hlater⟩ := not_or.mp (mt commaAt_cons.mpr h)
    have hno : ¬ (c = ',' ∧ depth = 0) := fun hc => hhere ⟨hc.1, by omega⟩
    obtain ⟨w, ws, hinner, houter⟩ := splitTop_cons hno (cs ++ rest)
    have hdepth : nested depth c + level cs = depth + level (c :: cs) := by
      rw [level_cons, nested_eq depth]
      omega
    have hnext : ¬ CommaAt (-nested depth c) cs := by
      rwa [show -nested depth c = -depth - nested 0 c by rw [nested_eq depth]; omega]
    rw [ih _ hnext, hdepth] at hinner
    rw [List.cons_append, houter]
    cases hrest : splitTop (depth + level (c :: cs)) rest with
    | nil => exact absurd hrest (splitTop_ne_nil _ rest)
    | cons v vs =>
      rw [hrest] at hinner
      obtain ⟨rfl, rfl⟩ := List.cons.inj hinner
      rfl

/-- The first comma that is met at depth zero ends the first piece. -/
theorem splitTop_of_commaAt (depth : Int) {cs : List Char} (h : CommaAt (-depth) cs)
    (rest : List Char) :
    ∃ front back pieces,
      cs = front ++ ',' :: back ∧ splitTop depth (cs ++ rest) = front :: pieces := by
  induction cs generalizing depth with
  | nil => exact absurd h (not_commaAt_of_notMem List.not_mem_nil _)
  | cons c cs ih =>
    by_cases hhere : c = ',' ∧ depth = 0
    · obtain ⟨rfl, rfl⟩ := hhere
      exact ⟨[], cs, splitTop 0 (cs ++ rest), rfl, splitTop_comma _⟩
    · obtain ⟨w, ws, hinner, houter⟩ := splitTop_cons hhere (cs ++ rest)
      have hlater := (commaAt_cons.mp h).resolve_left fun hc => hhere ⟨hc.1, by omega⟩
      rw [show -depth - nested 0 c = -nested depth c by rw [nested_eq depth]; omega] at hlater
      obtain ⟨front, back, pieces, hcs, hsplit⟩ := ih _ hlater
      rw [hsplit] at hinner
      obtain ⟨rfl, rfl⟩ := List.cons.inj hinner
      exact ⟨c :: front, back, pieces, by rw [hcs, List.cons_append], houter⟩

/-- A text that makes up a piece: no comma is outside its brackets, and it leaves none open. -/
structure IsPiece (cs : List Char) : Prop where
  uncut : ¬ CommaAt 0 cs
  level : level cs = 0

theorem Nests.isPiece {cs : List Char} (h : Nests [] cs) : IsPiece cs where
  uncut hcomma := by
    have hinside := h.lt_of_commaAt hcomma
    simp at hinside
  level := h.level_eq

theorem isPiece_of_not_matters {cs : List Char} (h : ∀ c ∈ cs, matters c = false) :
    IsPiece cs where
  uncut := by
    refine not_commaAt_of_notMem (fun hmem => ?_) 0
    have hcomma := h _ hmem
    simp [matters] at hcomma
  level := by
    induction cs with
    | nil => rfl
    | cons c cs ih =>
      obtain ⟨hc, hcs⟩ := List.forall_mem_cons.mp h
      rw [level_cons, nested_of_not_matters hc, ih hcs]
      rfl

theorem isPiece_of_all {cs : List Char} (h : cs.all (!matters ·) = true) : IsPiece cs := by
  refine isPiece_of_not_matters fun c hc => ?_
  simpa using List.all_eq_true.mp h c hc

theorem isPiece_of_blank {cs : List Char} (h : ∀ c ∈ cs, isBlank c = true) : IsPiece cs :=
  isPiece_of_not_matters fun c hc => not_matters_of_isBlank c (h c hc)

theorem IsPiece.append {cs ds : List Char} (hcs : IsPiece cs) (hds : IsPiece ds) :
    IsPiece (cs ++ ds) where
  uncut := by
    rw [commaAt_append, hcs.level, not_or]
    exact ⟨hcs.uncut, hds.uncut⟩
  level := by rw [level_append, hcs.level, hds.level, Int.add_zero]

theorem IsPiece.splitTop_eq {cs : List Char} (h : IsPiece cs) : splitTop 0 cs = [cs] := by
  have hsplit := splitTop_append 0 h.uncut []
  rw [List.append_nil] at hsplit
  simp [hsplit, splitTop]

theorem IsPiece.splitTop_comma {cs : List Char} (h : IsPiece cs) (rest : List Char) :
    splitTop 0 (cs ++ ',' :: rest) = cs :: splitTop 0 rest := by
  rw [splitTop_append 0 h.uncut, h.level, Int.add_zero, Signature.splitTop_comma]
  simp

/-- The text has no part in where the matching parenthesis is found. -/
def Passes (cs : List Char) : Prop :=
  ∀ (depth : Nat) (rest : List Char), matching? (depth + 1) (cs ++ rest) =
    (matching? (depth + 1) rest).map fun x => (cs ++ x.1, x.2)

theorem passes_nil : Passes [] := by
  intro depth rest
  simp

theorem Passes.append {cs ds : List Char} (hcs : Passes cs) (hds : Passes ds) :
    Passes (cs ++ ds) := by
  intro depth rest
  rw [List.append_assoc, hcs, hds, Option.map_map]
  simp [Function.comp_def]

theorem matching?_cons {c : Char} (hopening : c ≠ '(') (hclosing : c ≠ ')') (depth : Nat)
    (cs : List Char) :
    matching? depth (c :: cs) = (matching? depth cs).map fun x => (c :: x.1, x.2) := by
  simp [matching?, hopening, hclosing]

theorem matching?_opening (depth : Nat) (cs : List Char) :
    matching? (depth + 1) ('(' :: cs) =
      (matching? (depth + 2) cs).map fun x => ('(' :: x.1, x.2) := by
  simp [matching?]

theorem matching?_closing (depth : Nat) (cs : List Char) :
    matching? (depth + 2) (')' :: cs) =
      (matching? (depth + 1) cs).map fun x => (')' :: x.1, x.2) := by
  simp [matching?]

theorem passes_of_notMem {cs : List Char} (hopening : '(' ∉ cs) (hclosing : ')' ∉ cs) :
    Passes cs := by
  induction cs with
  | nil => exact passes_nil
  | cons c cs ih =>
    obtain ⟨hopening, hopenings⟩ := not_or.mp (mt List.mem_cons.mpr hopening)
    obtain ⟨hclosing, hclosings⟩ := not_or.mp (mt List.mem_cons.mpr hclosing)
    intro depth rest
    rw [List.cons_append, matching?_cons (Ne.symm hopening) (Ne.symm hclosing),
      ih hopenings hclosings, Option.map_map]
    rfl

/-- The parentheses of a nested text are matched among themselves, up to those that are awaited. -/
theorem Nests.matching? {awaited cs : List Char} (h : Nests awaited cs) (depth : Nat)
    (rest : List Char) :
    matching? (depth + awaited.count ')' + 1) (cs ++ rest) =
      (matching? (depth + 1) rest).map fun x => (cs ++ x.1, x.2) := by
  induction h with
  | done =>
    simp
  | @opens c d awaited cs hc _ ih =>
    obtain ⟨_, _, hpair, hne⟩ := isClosing_of_closer? hc
    by_cases hparen : c = '('
    · have hd := hpair.mp hparen
      subst hparen hd
      rw [List.count_cons_self, ← Nat.add_assoc] at ih
      rw [List.cons_append, matching?_opening, ih, Option.map_map]
      rfl
    · rw [List.count_cons_of_ne (fun hd => hparen (hpair.mpr hd))] at ih
      rw [List.cons_append, matching?_cons hparen hne, ih, Option.map_map]
      rfl
  | @closes c awaited cs hc _ ih =>
    by_cases hparen : c = ')'
    · subst hparen
      rw [List.count_cons_self, ← Nat.add_assoc, List.cons_append, matching?_closing, ih,
        Option.map_map]
      rfl
    · have hopening : c ≠ '(' := by
        rintro rfl
        cases hc
      rw [List.count_cons_of_ne hparen, List.cons_append, matching?_cons hopening hparen, ih,
        Option.map_map]
      rfl
  | @other c awaited cs hopening hclosing _ _ ih =>
    have hopening : c ≠ '(' := by
      rintro rfl
      cases hopening
    have hclosing : c ≠ ')' := by
      rintro rfl
      cases hclosing
    rw [List.cons_append, matching?_cons hopening hclosing, ih, Option.map_map]
    rfl

theorem Nests.passes {cs : List Char} (h : Nests [] cs) : Passes cs := fun depth rest =>
  h.matching? depth rest

theorem Passes.matching?_enclosed {cs : List Char} (h : Passes cs) (rest : List Char) :
    Signature.matching? 0 ('(' :: (cs ++ ')' :: rest)) = some (cs, rest) := by
  have hinner : Signature.matching? 1 (cs ++ ')' :: rest) = some (cs, rest) := by
    rw [h 0]
    simp [Signature.matching?]
  simp [Signature.matching?, hinner]

end Synthesis.Signature
