import Mathlib.Data.List.TakeWhile
import Synthesis.Strategy.Parameters

/-!
A parameter that was read from a signature and is written into a signature of its own comes back
as one parameter at most. The commas of its text stand inside brackets, since it is a piece
between the outer commas; and when it has as many opening as closing parentheses, the matching
parenthesis of the new signature is found inside its text or right behind it.
-/
namespace Synthesis

open Text

namespace Signature

/-- Commas and brackets alone decide where a list of parameters is cut. -/
def matters (c : Char) : Bool := c == ',' || isOpening c || isClosing c

/-- No comma of the text is outside all brackets. -/
def Whole (depth : Int) (cs : List Char) : Prop := (splitTop depth cs).length = 1

theorem splitTop_comma (cs : List Char) : splitTop 0 (',' :: cs) = [] :: splitTop 0 cs := by
  simp [splitTop]

theorem splitTop_ne_nil (depth : Int) (cs : List Char) : splitTop depth cs ≠ [] := by
  cases cs with
  | nil => simp [splitTop]
  | cons c cs =>
    unfold splitTop
    split
    · simp
    · split <;> simp

theorem splitTop_cons {depth : Int} {c : Char} (h : ¬ (c = ',' ∧ depth = 0)) (cs : List Char) :
    ∃ w ws, splitTop (nested depth c) cs = w :: ws ∧ splitTop depth (c :: cs) = (c :: w) :: ws := by
  cases hsplit : splitTop (nested depth c) cs with
  | nil => exact absurd hsplit (splitTop_ne_nil _ cs)
  | cons w ws =>
    refine ⟨w, ws, rfl, ?_⟩
    rw [splitTop, if_neg h, hsplit]

theorem length_splitTop_cons {depth : Int} {c : Char} (h : ¬ (c = ',' ∧ depth = 0))
    (cs : List Char) :
    (splitTop depth (c :: cs)).length = (splitTop (nested depth c) cs).length := by
  obtain ⟨w, ws, hinner, houter⟩ := splitTop_cons h cs
  rw [hinner, houter, List.length_cons, List.length_cons]

theorem nested_of_not_matters {c : Char} (hc : matters c = false) (depth : Int) :
    nested depth c = depth := by
  simp only [matters, Bool.or_eq_false_iff] at hc
  simp [nested, hc.1.2, hc.2]

theorem length_splitTop_filter (depth : Int) (cs : List Char) :
    (splitTop depth (cs.filter matters)).length = (splitTop depth cs).length := by
  induction cs generalizing depth with
  | nil => rfl
  | cons c cs ih =>
    by_cases hcomma : c = ',' ∧ depth = 0
    · obtain ⟨rfl, rfl⟩ := hcomma
      rw [List.filter_cons_of_pos (by decide), splitTop_comma, splitTop_comma,
        List.length_cons, List.length_cons, ih]
    · cases hc : matters c with
      | true =>
        rw [List.filter_cons_of_pos hc, length_splitTop_cons hcomma, length_splitTop_cons hcomma,
          ih]
      | false =>
        rw [List.filter_cons_of_neg (by simp [hc]), length_splitTop_cons hcomma,
          nested_of_not_matters hc, ih]

/-- Texts with the same commas and brackets are cut into equally many pieces. -/
theorem Whole.of_filter {depth : Int} {cs ds : List Char} (h : Whole depth cs)
    (heq : ds.filter matters = cs.filter matters) : Whole depth ds := by
  unfold Whole at h ⊢
  rw [← length_splitTop_filter, heq, length_splitTop_filter, h]

theorem length_splitTop_append_le (depth : Int) (cs ds : List Char) :
    (splitTop depth cs).length ≤ (splitTop depth (cs ++ ds)).length := by
  induction cs generalizing depth with
  | nil =>
    cases ds with
    | nil => exact Nat.le_refl _
    | cons d ds =>
      by_cases hcomma : d = ',' ∧ depth = 0
      · obtain ⟨rfl, rfl⟩ := hcomma
        rw [List.nil_append, splitTop_comma]
        simp [splitTop]
      · obtain ⟨w, ws, _, hcons⟩ := splitTop_cons hcomma ds
        rw [List.nil_append, hcons]
        simp [splitTop]
  | cons c cs ih =>
    by_cases hcomma : c = ',' ∧ depth = 0
    · obtain ⟨rfl, rfl⟩ := hcomma
      rw [List.cons_append, splitTop_comma, splitTop_comma, List.length_cons, List.length_cons]
      exact Nat.succ_le_succ (ih 0)
    · rw [List.cons_append, length_splitTop_cons hcomma, length_splitTop_cons hcomma]
      exact ih _

/-- The pieces themselves have no comma outside all brackets; only the first starts at the given
depth. -/
theorem splitTop_pieces {depth : Int} {cs w : List Char} {ws : List (List Char)}
    (h : splitTop depth cs = w :: ws) : Whole depth w ∧ ∀ v ∈ ws, Whole 0 v := by
  induction cs generalizing depth w ws with
  | nil =>
    simp only [splitTop, List.cons.injEq] at h
    obtain ⟨rfl, rfl⟩ := h
    exact ⟨rfl, by simp⟩
  | cons c cs ih =>
    by_cases hcomma : c = ',' ∧ depth = 0
    · obtain ⟨rfl, rfl⟩ := hcomma
      rw [splitTop_comma, List.cons.injEq] at h
      obtain ⟨rfl, rfl⟩ := h
      obtain ⟨x, xs, hsplit⟩ := List.exists_cons_of_ne_nil (splitTop_ne_nil 0 cs)
      obtain ⟨hfirst, hrest⟩ := ih hsplit
      rw [hsplit]
      exact ⟨rfl, List.forall_mem_cons.mpr ⟨hfirst, hrest⟩⟩
    · obtain ⟨x, xs, hinner, houter⟩ := splitTop_cons hcomma cs
      rw [houter, List.cons.injEq] at h
      obtain ⟨rfl, rfl⟩ := h
      obtain ⟨hfirst, hrest⟩ := ih hinner
      refine ⟨?_, hrest⟩
      unfold Whole at hfirst ⊢
      rw [length_splitTop_cons hcomma, hfirst]

theorem whole_of_mem_splitTop (cs : List Char) : ∀ v ∈ splitTop 0 cs, Whole 0 v := by
  obtain ⟨w, ws, hsplit⟩ := List.exists_cons_of_ne_nil (splitTop_ne_nil 0 cs)
  obtain ⟨hfirst, hrest⟩ := splitTop_pieces hsplit
  rw [hsplit]
  exact List.forall_mem_cons.mpr ⟨hfirst, hrest⟩

theorem plain_of_matters {c : Char} (hc : matters c = true) :
    isBlank c = false ∧ c.isDigit = false := by
  simp only [matters, isOpening, isClosing, Bool.or_eq_true, beq_iff_eq] at hc
  rcases hc with (rfl | ((rfl | rfl) | rfl) | rfl) | ((rfl | rfl) | rfl) | rfl <;> decide

theorem not_matters_of_isBlank (c : Char) (hc : isBlank c = true) : matters c = false := by
  cases hm : matters c with
  | false => rfl
  | true => simp [(plain_of_matters hm).1] at hc

theorem not_matters_of_isDigit (c : Char) (hc : c.isDigit = true) : matters c = false := by
  cases hm : matters c with
  | false => rfl
  | true => simp [(plain_of_matters hm).2] at hc

theorem filter_trimmed (cs : List Char) :
    (trimmed cs).toList.filter matters = cs.filter matters := by
  rw [trimmed, String.toList_ofList, filter_strip not_matters_of_isBlank]

theorem filter_natText (n : Nat) : (Decimal.natText n).toList.filter matters = [] := by
  rw [Decimal.natText, String.toList_ofList, List.filter_eq_nil_iff]
  intro c hc
  have hdigit : c.isDigit = true := Nat.isDigit_of_mem_toDigits (by decide) (by decide) hc
  simp [not_matters_of_isDigit c hdigit]

/-- Name and type of a parameter as they stand in a signature. -/
def inside (p : Param) : List Char := p.name.toList ++ ':' :: ' ' :: p.type.toList

/-- Reading a piece keeps all its commas and brackets, in their order. -/
theorem filter_inside_param (part : List Char) (i : Nat) :
    (inside (param part i)).filter matters = part.filter matters := by
  have hname : "arg".toList.filter matters = [] := by decide
  have hcut : ∀ sep : Char, matters sep = false → ∀ n t : List Char, cutAt sep part = some (n, t) →
      (inside ⟨trimmed n, trimmed t⟩).filter matters = part.filter matters := by
    intro sep hsep n t h
    rw [eq_of_cutAt h, inside, List.filter_append, List.filter_append, filter_trimmed,
      List.filter_cons_of_neg (by decide), List.filter_cons_of_neg (by decide), filter_trimmed,
      List.filter_cons_of_neg (by simp [hsep])]
  have hunnamed : (inside ⟨"arg" ++ Decimal.natText i, String.ofList part⟩).filter matters =
      part.filter matters := by
    rw [inside, List.filter_append, String.toList_append, List.filter_append, hname,
      filter_natText, List.filter_cons_of_neg (by decide), List.filter_cons_of_neg (by decide),
      String.toList_ofList]
    rfl
  unfold param
  dsimp only
  split
  next n t h => exact hcut ':' (by decide) n t h
  next =>
    split
    next n t h =>
      split
      · exact hunnamed
      · exact hcut ' ' (by decide) n t h
    next => exact hunnamed

theorem whole_of_mem_paramsOf {cs : List Char} {p : Param} (hp : p ∈ paramsOf cs) :
    Whole 0 (inside p) := by
  obtain ⟨⟨piece, i⟩, hpiece, hparam⟩ := List.mem_filterMap.mp hp
  dsimp only at hparam
  split at hparam
  next => cases hparam
  next =>
    cases hparam
    refine (whole_of_mem_splitTop cs piece (List.fst_mem_of_mem_zipIdx hpiece)).of_filter ?_
    rw [filter_inside_param, filter_strip not_matters_of_isBlank]

/-- A text that closes all open parentheses holds the matching one, whatever follows. -/
theorem matching?_append {depth : Nat} {cs : List Char} (hopen : 1 ≤ depth)
    (hcloses : cs.count '(' + depth ≤ cs.count ')') (after : List Char) :
    ∃ inner between, matching? depth (cs ++ after) = some (inner, between ++ after) ∧
      cs = inner ++ ')' :: between := by
  induction cs generalizing depth with
  | nil =>
    simp only [List.count_nil] at hcloses
    omega
  | cons c cs ih =>
    rw [List.cons_append]
    by_cases hclosing : c = ')'
    · subst hclosing
      rw [List.count_cons_self, List.count_cons_of_ne (by decide)] at hcloses
      match depth, hopen with
      | 1, _ => exact ⟨[], cs, by simp [matching?], rfl⟩
      | d + 2, _ =>
        obtain ⟨inner, between, hmatch, hcs⟩ := ih (Nat.le_add_left 1 d) (by omega)
        exact ⟨')' :: inner, between, by simp [matching?, hmatch], by rw [hcs]; rfl⟩
    · by_cases hopening : c = '('
      · subst hopening
        rw [List.count_cons_self, List.count_cons_of_ne (by decide)] at hcloses
        obtain ⟨inner, between, hmatch, hcs⟩ := ih (Nat.le_add_left 1 depth) (by omega)
        have hpositive : depth ≠ 0 := by omega
        exact ⟨'(' :: inner, between, by simp [matching?, hmatch, hpositive], by rw [hcs]; rfl⟩
      · rw [List.count_cons_of_ne hclosing, List.count_cons_of_ne hopening] at hcloses
        obtain ⟨inner, between, hmatch, hcs⟩ := ih hopen hcloses
        exact ⟨c :: inner, between, by simp [matching?, hclosing, hopening, hmatch],
          by rw [hcs]; rfl⟩

/-- Name and type together have as many opening as closing parentheses. -/
def Balanced (p : Param) : Prop :=
  (p.name ++ p.type).toList.count '(' = (p.name ++ p.type).toList.count ')'

instance (p : Param) : Decidable (Balanced p) :=
  inferInstanceAs (Decidable (_ = _))

theorem count_inside (p : Param) {c : Char} (hcolon : c ≠ ':') (hblank : c ≠ ' ') :
    (inside p).count c = (p.name ++ p.type).toList.count c := by
  rw [inside, String.toList_append, List.count_append, List.count_append,
    List.count_cons_of_ne hcolon.symm, List.count_cons_of_ne hblank.symm]

theorem toList_alone (p : Param) :
    (Strategy.Parameters.alone p).toList =
      '(' :: (inside p ++ ')' :: (" -> ".toList ++ p.type.toList)) := by
  simp [Strategy.Parameters.alone, inside]

theorem strip_enclosed {a b : Char} (ha : isBlank a = false) (hb : isBlank b = false)
    (cs ds : List Char) :
    strip isBlank (a :: (cs ++ b :: ds)) = a :: (cs ++ b :: dropRightWhile isBlank ds) := by
  rw [strip, List.dropWhile_cons_of_neg (by simp [ha]), ← List.cons_append,
    dropRightWhile_append_cons hb, List.cons_append]

theorem params_of_matching {raw : String} {cs inner rest : List Char} {sig : Signature}
    (htext : strip isBlank (dropLead "func".toList (strip isBlank raw.toList)) = '(' :: cs)
    (hmatch : matching? 1 cs = some (inner, rest)) (hparse : parse? raw = some sig) :
    sig.params = paramsOf inner := by
  have houter : matching? 0 ('(' :: cs) = some (inner, rest) := by simp [matching?, hmatch]
  unfold parse? at hparse
  rw [htext] at hparse
  dsimp only at hparse
  rw [if_pos (by rfl), houter] at hparse
  cases hparse
  rfl

theorem exists_paramsOf {raw : String} {sig : Signature} (hparse : parse? raw = some sig) :
    ∃ cs, sig.params = paramsOf cs := by
  unfold parse? at hparse
  dsimp only at hparse
  split at hparse
  next =>
    split at hparse
    next => cases hparse
    next inner rest _ =>
      cases hparse
      exact ⟨inner, rfl⟩
  next => cases hparse

/-- A parameter read from a signature and written alone is read back as at most one. -/
theorem length_params_alone {raw : String} {whole sig : Signature} {p : Param}
    (hwhole : parse? raw = some whole) (hp : p ∈ whole.params) (hbalanced : Balanced p)
    (hparse : parse? (Strategy.Parameters.alone p) = some sig) : sig.params.length ≤ 1 := by
  obtain ⟨cs, hcs⟩ := exists_paramsOf hwhole
  rw [hcs] at hp
  let after := dropRightWhile isBlank (dropRightWhile isBlank (" -> ".toList ++ p.type.toList))
  have htext : strip isBlank (dropLead "func".toList
      (strip isBlank (Strategy.Parameters.alone p).toList)) =
        '(' :: (inside p ++ ')' :: after) := by
    rw [toList_alone, strip_enclosed (by decide) (by decide)]
    exact strip_enclosed (by decide) (by decide) _ _
  -- The parentheses of the parameter come in pairs, so the one behind it closes the first.
  have hcloses : (inside p ++ [')']).count '(' + 1 ≤ (inside p ++ [')']).count ')' := by
    have hopening := count_inside p (c := '(') (by decide) (by decide)
    have hclosing := count_inside p (c := ')') (by decide) (by decide)
    unfold Balanced at hbalanced
    rw [List.count_append, List.count_append, List.count_singleton_self,
      List.count_eq_zero.mpr (by decide : '(' ∉ [')'])]
    omega
  obtain ⟨inner, between, hmatch, hinner⟩ := matching?_append (Nat.le_refl 1) hcloses after
  have hprefix : inner <+: inside p := by
    have hshort : inner <+: inside p ++ [')'] := ⟨_, hinner.symm⟩
    refine List.prefix_of_prefix_length_le hshort (List.prefix_append _ _) ?_
    have hlength := congrArg List.length hinner
    simp only [List.length_append, List.length_cons, List.length_nil] at hlength
    omega
  obtain ⟨rest, hrest⟩ := hprefix
  -- What is inside is a piece of the old signature, or only the start of it.
  have hpieces : (splitTop 0 inner).length ≤ 1 := by
    have hwhole : (splitTop 0 (inside p)).length = 1 := whole_of_mem_paramsOf hp
    rw [← hwhole, ← hrest]
    exact length_splitTop_append_le 0 inner rest
  have hparams : sig.params = paramsOf inner :=
    params_of_matching (htext.trans (by simp)) hmatch hparse
  rw [hparams]
  refine Nat.le_trans (List.length_filterMap_le _ _) ?_
  rwa [List.length_zipIdx]

end Signature

namespace Strategy.Parameters

open Signature

theorem typeSignature_constrained (sig : Signature) (s : Specification) :
    (constrained sig s).typeSignature = s.typeSignature := by
  unfold constrained
  split <;> rfl

theorem testList_constrained (sig : Signature) (s : Specification) :
    (constrained sig s).testList = s.testList := by
  unfold constrained
  split <;> rfl

theorem testList_preparation (s : Specification) (sig : Signature) (p : Param) :
    (preparation s sig p).testList = [] := by
  unfold preparation
  rw [testList_constrained]
  rfl

theorem testList_combination (s : Specification) (sig : Signature) :
    (combination s sig).testList = s.testList := by
  unfold combination
  rw [testList_constrained]
  -- the tests of a part do not depend on its description
  exact Specification.testList_derive s "" s.testList

/-- The step that prepares a balanced parameter is not split along its signature again. -/
theorem decompose_preparation {s : Specification} {sig : Signature} {p : Param}
    (hparse : parse? s.typeSignature = some sig) (hp : p ∈ sig.params) (hbalanced : Balanced p) :
    decompose (preparation s sig p) = [] := by
  have hsignature : (preparation s sig p).typeSignature = alone p :=
    typeSignature_constrained _ _
  unfold decompose
  rw [hsignature]
  cases halone : parse? (alone p) with
  | none => rfl
  | some single =>
    have hlength := length_params_alone hparse hp hbalanced halone
    exact if_pos (Nat.lt_succ_of_le hlength)

theorem decompose_of_typeSignature {s : Specification} (h : s.typeSignature = "") :
    decompose s = [] := by
  have hnone : parse? "" = none := by decide
  unfold decompose
  rw [h, hnone]

theorem decompose_combination (s : Specification) (sig : Signature) :
    decompose (combination s sig) = [] :=
  decompose_of_typeSignature (typeSignature_constrained _ _)

end Strategy.Parameters

end Synthesis
