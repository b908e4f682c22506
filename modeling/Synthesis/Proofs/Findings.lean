import Synthesis.Proofs.Padding

/-!
What the leak policy finds in a line. Where all patterns are solid, something is found just when
a pattern occurs, and whether one does depends on the line without the blanks around it only. So
a code passes the policy when each of its lines is clean, and moving lines about keeps them so.
The built-in policy has such patterns only.
-/
namespace Synthesis

theorem Program.find?_ne_empty {q : Pattern} (hq : q.isSolid = true) {line m : String}
    (h : (ofPattern q).find? line = some m) : m ≠ "" := by
  obtain ⟨span, hspan, rfl⟩ := Option.map_eq_some_iff.mp h
  obtain ⟨hle, hstop, hmatch⟩ := span?_sound hspan
  have hlt : span.start < span.stop := by
    refine Nat.lt_of_le_of_ne hle ?_
    intro heq
    rw [heq] at hmatch
    simp [Pattern.isSolid, hmatch.mayBeEmpty (Nat.le_refl _)] at hq
  intro hempty
  have hlength := congrArg (fun s => s.toList.length) hempty
  simp at hlength
  omega

namespace LeakPolicy

variable {p : LeakPolicy} {least : Confidence}

/-- Every pattern is a solid one. -/
def IsSolid (p : LeakPolicy) : Prop :=
  ∀ named ∈ p.patterns, ∃ q : Pattern, q.isSolid = true ∧ named.2.program = .ofPattern q

/-- A pattern that counts is in the line. -/
def leaks (p : LeakPolicy) (least : Confidence) (line : String) : Bool :=
  p.patterns.any fun named =>
    least.rank ≤ named.2.rule.confidence.rank && named.2.program.isIn line

theorem leaks_iff {line : String} : p.leaks least line = true ↔ ∃ named ∈ p.patterns,
    least.rank ≤ named.2.rule.confidence.rank ∧ named.2.program.isIn line = true := by
  simp [leaks]

theorem finding?_eq_some {number : Nat} {line : String} {named : String × LeakPattern}
    {f : Finding} (h : finding? number line named = some f) :
    f.line = number ∧ f.rule = named.2.rule ∧ f.classification = named.1 ∧
      named.2.program.isIn line = true := by
  unfold finding? at h
  split at h
  · cases h
  next m hfind =>
    split at h
    · cases h
    · cases h
      refine ⟨rfl, rfl, rfl, ?_⟩
      obtain ⟨span, hspan, _⟩ := Option.map_eq_some_iff.mp hfind
      exact Option.isSome_iff_exists.mpr ⟨span, hspan⟩

/-- What a solid pattern is in, it finds. -/
theorem exists_finding? {q : Pattern} (hq : q.isSolid = true) {named : String × LeakPattern}
    (hnamed : named.2.program = .ofPattern q) {line : String}
    (h : named.2.program.isIn line = true) (number : Nat) :
    ∃ f, finding? number line named = some f := by
  obtain ⟨span, hspan⟩ := Option.isSome_iff_exists.mp h
  have hfind : named.2.program.find? line =
      some (String.ofList ((line.toList.take span.stop).drop span.start)) :=
    Option.map_eq_some_iff.mpr ⟨span, hspan, rfl⟩
  have hsome := hfind
  rw [hnamed] at hsome
  unfold finding?
  rw [hfind]
  dsimp only
  rw [if_neg (Program.find?_ne_empty hq hsome)]
  exact ⟨_, rfl⟩

theorem leaks_of_mem_scanLine {number : Nat} {line : String} {f : Finding}
    (h : f ∈ p.scanLine number line) (hleast : least.rank ≤ f.rule.confidence.rank) :
    p.leaks least line = true := by
  obtain ⟨named, hmem, hfinding⟩ := List.mem_filterMap.mp h
  obtain ⟨_, hrule, _, hin⟩ := finding?_eq_some hfinding
  rw [hrule] at hleast
  exact leaks_iff.mpr ⟨named, hmem, hleast, hin⟩

/-- A finding is in the line it names. -/
theorem line_of_mem_scan {code : String} {f : Finding} (h : f ∈ p.scan code) :
    ∃ line, (Text.lines code)[f.line - 1]? = some line ∧ f ∈ p.scanLine f.line line := by
  obtain ⟨⟨line, i⟩, hline, hscan⟩ := List.mem_flatMap.mp h
  obtain ⟨named, hmem, hfinding⟩ := List.mem_filterMap.mp hscan
  obtain ⟨hnumber, _⟩ := finding?_eq_some hfinding
  refine ⟨line, ?_, ?_⟩
  · rw [hnumber, Nat.add_sub_cancel]
    exact List.mem_zipIdx_iff_getElem?.mp hline
  · rw [hnumber]
    exact hscan

theorem mem_scan_of_finding? {code line : String} {i : Nat} {named : String × LeakPattern}
    {f : Finding} (hline : (Text.lines code)[i]? = some line) (hnamed : named ∈ p.patterns)
    (h : finding? (i + 1) line named = some f) : f ∈ p.scan code :=
  List.mem_flatMap.mpr ⟨(line, i), List.mem_zipIdx_iff_getElem?.mpr hline,
    List.mem_filterMap.mpr ⟨named, hnamed, h⟩⟩

/-- A code passes when no line of it leaks. -/
theorem report_passed_iff (hp : p.IsSolid) {code : String} :
    (p.report least code).passed = true ↔ ∀ line ∈ Text.lines code, p.leaks least line = false := by
  change ((p.scan code).filter fun f => least.rank ≤ f.rule.confidence.rank).isEmpty = true ↔ _
  rw [List.isEmpty_iff, List.filter_eq_nil_iff]
  constructor
  · intro hnone line hline
    obtain ⟨i, hi⟩ := List.mem_iff_getElem?.mp hline
    rw [Bool.eq_false_iff]
    intro hleaks
    obtain ⟨named, hmem, hleast, hin⟩ := leaks_iff.mp hleaks
    obtain ⟨q, hq, hnamed⟩ := hp named hmem
    obtain ⟨f, hf⟩ := exists_finding? hq hnamed hin (i + 1)
    obtain ⟨_, hrule, _⟩ := finding?_eq_some hf
    refine hnone f (mem_scan_of_finding? hi hmem hf) ?_
    rw [hrule]
    exact decide_eq_true hleast
  · intro hclean f hf hleast
    obtain ⟨line, hline, hscan⟩ := line_of_mem_scan hf
    have hleaks := leaks_of_mem_scanLine hscan (of_decide_eq_true hleast)
    rw [hclean line (List.mem_of_getElem? hline)] at hleaks
    cases hleaks

theorem isIn_of_trim_eq {q : Pattern} (hq : q.isSolid = true) {line line' : String}
    (htrim : Text.trim line = Text.trim line') (h : (Program.ofPattern q).isIn line = true) :
    (Program.ofPattern q).isIn line' = true := by
  rw [Program.isIn_ofPattern_iff] at h ⊢
  exact Pattern.Occurs.of_strip_eq hq (String.ofList_injective htrim) h

/-- Blanks around a line do not matter. -/
theorem leaks_of_trim_eq (hp : p.IsSolid) {line line' : String}
    (htrim : Text.trim line = Text.trim line') (h : p.leaks least line = true) :
    p.leaks least line' = true := by
  obtain ⟨named, hmem, hleast, hin⟩ := leaks_iff.mp h
  obtain ⟨q, hq, hnamed⟩ := hp named hmem
  refine leaks_iff.mpr ⟨named, hmem, hleast, ?_⟩
  rw [hnamed] at hin ⊢
  exact isIn_of_trim_eq hq htrim hin

theorem leaks_empty (hp : p.IsSolid) : p.leaks least "" = false := by
  rw [Bool.eq_false_iff]
  intro hleaks
  obtain ⟨named, hmem, _, hin⟩ := leaks_iff.mp hleaks
  obtain ⟨q, hq, hnamed⟩ := hp named hmem
  obtain ⟨n, hn, y, hmatch⟩ := (Program.isIn_ofPattern_iff q "").mp (hnamed ▸ hin)
  have hshort : (Program.placeAt "".toList n).rest.length ≤ y.rest.length := by
    simp [Program.placeAt]
  simp [Pattern.isSolid, hmatch.mayBeEmpty hshort] at hq

/-- The compiled form of a rule that can be read. -/
def compiledRule (r : LeakRule) : LeakPattern :=
  ⟨r, .ofPattern ((Pattern.ofText? r.regex).getD .empty)⟩

def compiledClass (c : Classification LeakRule) : Classification LeakPattern :=
  ⟨c.name, c.description, c.priority, c.patterns.map compiledRule⟩

theorem mapM_eq_ok {ε α β : Type} {f : α → Except ε β} {g : α → β} {xs : List α}
    (h : ∀ x ∈ xs, f x = .ok (g x)) : xs.mapM f = .ok (xs.map g) := by
  induction xs with
  | nil => rfl
  | cons x xs ih =>
    obtain ⟨hx, hxs⟩ := List.forall_mem_cons.mp h
    rw [List.mapM_cons, hx, ih hxs]
    rfl

theorem compileRule_of_solid {r : LeakRule}
    (h : (Pattern.ofText? r.regex).any Pattern.isSolid = true) :
    compileRule r = .ok (compiledRule r) := by
  obtain ⟨q, hq, _⟩ := (Option.any_eq_true _ _).mp h
  unfold compileRule compiledRule
  rw [hq]
  rfl

/-- All built-in rules can be read, and their patterns are solid. -/
theorem builtinRules_solid : ∀ c ∈ builtinRules, ∀ r ∈ c.patterns,
    (Pattern.ofText? r.regex).any Pattern.isSolid = true := by
  decide +kernel

theorem compile_of_sorted {cs : List (Classification LeakRule)}
    {compiled : List (Classification LeakPattern)}
    (h : cs.mapM compileClassification = .ok compiled)
    (hsorted : compiled.Pairwise fun a b => decide (b.priority ≤ a.priority) = true) :
    compile cs = .ok ⟨compiled⟩ := by
  unfold compile
  rw [h]
  change Except.ok (LeakPolicy.mk _) = _
  rw [List.mergeSort_of_pairwise hsorted]

/-- The built-in rules are written in the order of their priorities. -/
theorem builtin_eq : builtin = ⟨builtinRules.map compiledClass⟩ := by
  have hclasses : builtinRules.mapM compileClassification =
      .ok (builtinRules.map compiledClass) := by
    refine mapM_eq_ok ?_
    intro c hc
    unfold compileClassification
    rw [mapM_eq_ok fun r hr => compileRule_of_solid (builtinRules_solid c hc r hr)]
    rfl
  have hsorted : (builtinRules.map compiledClass).Pairwise
      fun a b => decide (b.priority ≤ a.priority) = true := by
    refine List.pairwise_map.mpr ?_
    decide
  unfold builtin
  rw [compile_of_sorted hclasses hsorted]

/-- The patterns are those of the rules. -/
theorem of_mem_builtin {named : String × LeakPattern} (h : named ∈ builtin.patterns) :
    ∃ c ∈ builtinRules, ∃ r ∈ c.patterns, named = (c.name, compiledRule r) := by
  rw [builtin_eq] at h
  obtain ⟨c', hc', hnamed⟩ := List.mem_flatMap.mp h
  obtain ⟨c, hc, rfl⟩ := List.mem_map.mp hc'
  obtain ⟨pattern, hpattern, rfl⟩ := List.mem_map.mp hnamed
  obtain ⟨r, hr, rfl⟩ := List.mem_map.mp hpattern
  exact ⟨c, hc, r, hr, rfl⟩

theorem builtin_isSolid : builtin.IsSolid := by
  intro named hmem
  obtain ⟨c, hc, r, hr, rfl⟩ := of_mem_builtin hmem
  obtain ⟨q, hq, hsolid⟩ := (Option.any_eq_true _ _).mp (builtinRules_solid c hc r hr)
  refine ⟨q, hsolid, ?_⟩
  rw [compiledRule, hq]
  rfl

theorem builtin_leaks_otherwise : builtin.leaks least "  otherwise:" = false := by
  have hrules : ∀ c ∈ builtinRules, ∀ r ∈ c.patterns,
      (compiledRule r).program.isIn "  otherwise:" = false := by
    decide +kernel
  rw [Bool.eq_false_iff]
  intro hleaks
  obtain ⟨named, hmem, _, hin⟩ := leaks_iff.mp hleaks
  obtain ⟨c, hc, r, hr, rfl⟩ := of_mem_builtin hmem
  rw [hrules c hc r hr] at hin
  cases hin

end LeakPolicy

end Synthesis
