import Synthesis.Proofs.Findings
import Synthesis.Proofs.Lines

/-!
Whole texts and their lines. A content is classified as a whole and scanned line by line, and the
two see the same matches, but for those that take a newline with them. Among the built-in
patterns only the one for passwords can do so: its blanks and its quoted text may go on in the
next line. Such a content is classified as secret, and the scan may have nothing to say about it.
-/
namespace Synthesis

namespace Text

variable {sep : Char} {cs w left right : List Char}

/-- What stands around a piece: next to it there is nothing or a separator. -/
structure Framed (sep : Char) (left right : List Char) : Prop where
  left : ∀ c ∈ left.getLast?, c = sep
  right : ∀ c ∈ right.head?, c = sep

theorem exists_first_piece (sep : Char) (cs : List Char) :
    ∃ w right, cs = w ++ right ∧ sep ∉ w ∧ ∀ c ∈ right.head?, c = sep := by
  induction cs with
  | nil => exact ⟨[], [], rfl, List.not_mem_nil, by simp⟩
  | cons c cs ih =>
    by_cases hc : c = sep
    · exact ⟨[], c :: cs, rfl, List.not_mem_nil, by simp [hc]⟩
    · obtain ⟨w, right, rfl, hw, hright⟩ := ih
      exact ⟨c :: w, right, rfl, List.not_mem_cons_of_ne_of_not_mem (Ne.symm hc) hw, hright⟩

theorem exists_last_piece (sep : Char) (cs : List Char) :
    ∃ left w, cs = left ++ w ∧ sep ∉ w ∧ ∀ c ∈ left.getLast?, c = sep := by
  obtain ⟨w, right, heq, hw, hright⟩ := exists_first_piece sep cs.reverse
  refine ⟨right.reverse, w.reverse, ?_, mt List.mem_reverse.mp hw, ?_⟩
  · rw [← List.reverse_append, ← heq, List.reverse_reverse]
  · rw [List.getLast?_reverse]
    exact hright

theorem mem_splitAt_of_framed (hw : sep ∉ w) (h : Framed sep left right) :
    w ∈ splitAt sep (left ++ (w ++ right)) := by
  have hfirst : w ∈ splitAt sep (w ++ right) := by
    cases right with
    | nil => rw [List.append_nil, splitAt_of_notMem hw, List.mem_singleton]
    | cons c right =>
      obtain rfl : c = sep := h.right c rfl
      rw [splitAt_append_cons, splitAt_of_notMem hw]
      exact List.mem_cons_self
  cases hlast : left.getLast? with
  | none =>
    rw [List.getLast?_eq_none_iff.mp hlast]
    exact hfirst
  | some c =>
    obtain ⟨front, rfl⟩ := List.getLast?_eq_some_iff.mp hlast
    obtain rfl : c = sep := h.left c hlast
    rw [List.append_assoc, List.singleton_append, splitAt_append_cons]
    exact List.mem_append_right _ hfirst

theorem exists_frame_of_mem_splitAt (h : w ∈ splitAt sep cs) :
    ∃ left right, cs = left ++ (w ++ right) ∧ Framed sep left right := by
  -- By induction on the length: behind the first piece the same holds of what is left.
  induction hlength : cs.length using Nat.strongRecOn generalizing cs with
  | ind n ih =>
    obtain ⟨v, right, rfl, hv, hright⟩ := exists_first_piece sep cs
    cases right with
    | nil =>
      rw [List.append_nil, splitAt_of_notMem hv, List.mem_singleton] at h
      exact ⟨[], [], by rw [h, List.nil_append], by simp, by simp⟩
    | cons c right =>
      obtain rfl : c = sep := hright c rfl
      rw [splitAt_append_cons, splitAt_of_notMem hv, List.singleton_append] at h
      rcases List.mem_cons.mp h with rfl | h
      · exact ⟨[], c :: right, rfl, by simp, hright⟩
      · have hshorter : right.length < n := by
          rw [← hlength, List.length_append, List.length_cons]
          omega
        obtain ⟨left, rest, rfl, hframed⟩ := ih _ hshorter h rfl
        refine ⟨v ++ c :: left, rest, by rw [List.append_assoc, List.cons_append], ?_,
          hframed.right⟩
        intro d hd
        rw [List.getLast?_append_cons, List.getLast?_cons] at hd
        cases hlast : left.getLast? with
        | none => simpa [hlast, eq_comm] using hd
        | some e =>
          obtain rfl : e = d := by simpa [hlast] using hd
          exact hframed.left e hlast

end Text

namespace CharSet

/-- There is no newline in the set. -/
def staysInLine (s : CharSet) : Bool := !s.bare.has 10

theorem not_contains_newline {s : CharSet} (h : s.staysInLine = true) :
    s.contains '\n' = false := by
  have hbare : s.bare.has 10 = s.contains '\n' := has_bare (by decide) s
  rw [← hbare]
  simpa [staysInLine] using h

end CharSet

namespace Pattern

variable {q : Pattern} {x y : Place} {text line : List Char}

/-- Some match of the pattern takes a newline. -/
def Crosses (q : Pattern) (text : List Char) : Prop :=
  ∃ front u y, text = front ++ (u ++ y.rest) ∧
    q.Matches ⟨front.getLast?, u ++ y.rest⟩ y ∧ '\n' ∈ u

theorem Crosses.occurs (h : q.Crosses text) : Occurs q text := by
  obtain ⟨front, u, y, htext, hmatch, _⟩ := h
  exact occurs_iff.mpr ⟨front, u ++ y.rest, htext, y, hmatch⟩

theorem not_isWord_newline {c : Option Char} (h : ∀ d ∈ c, d = '\n') : isWord c = false := by
  cases c with
  | none => rfl
  | some d =>
    rw [h d rfl]
    decide

theorem Occurs.of_line (hq : q.asksForWords = true) (hline : line ∈ Text.splitAt '\n' text)
    (h : Occurs q line) : Occurs q text := by
  obtain ⟨left, right, rfl, hframed⟩ := Text.exists_frame_of_mem_splitAt hline
  obtain ⟨front, rest, rfl, y, hmatch⟩ := occurs_iff.mp h
  obtain ⟨u, hu, _⟩ := hmatch.takes
  obtain rfl : rest = u ++ (y.rest ++ []) := by rw [List.append_nil, ← hu]
  have hleft : isWord ([] : List Char).getLast? = isWord left.getLast? :=
    (not_isWord_newline hframed.left).symm
  have hright : isWord ([] : List Char).head? = isWord right.head? :=
    (not_isWord_newline hframed.right).symm
  obtain ⟨y', hmatch'⟩ := Matches.reframe hq hleft hright (List.append_nil y.rest).symm hmatch
  refine occurs_iff.mpr ⟨left ++ front, u ++ (y.rest ++ right), ?_, y', hmatch'⟩
  simp

theorem asksForWords_of_isSolid (hq : q.isSolid = true) : q.asksForWords = true :=
  (Bool.and_eq_true_iff.mp hq).2

/-- A pattern is in a text when it is in a line of it, or goes over the end of one. -/
theorem occurs_iff_line_or_crosses (hq : q.asksForWords = true) :
    Occurs q text ↔ (∃ line ∈ Text.splitAt '\n' text, Occurs q line) ∨ q.Crosses text := by
  constructor
  · intro h
    obtain ⟨front, rest, rfl, y, hmatch⟩ := occurs_iff.mp h
    obtain ⟨u, rfl, _⟩ := hmatch.takes
    by_cases hu : '\n' ∈ u
    · exact Or.inr ⟨front, u, y, rfl, hmatch, hu⟩
    -- The line is what the match takes and what stands around it up to the next newlines.
    obtain ⟨left, f, rfl, hf, hleft⟩ := Text.exists_last_piece '\n' front
    obtain ⟨g, right, hg, hg', hright⟩ := Text.exists_first_piece '\n' y.rest
    rw [hg] at hmatch ⊢
    have hline : '\n' ∉ f ++ (u ++ g) := by
      simp [hf, hu, hg']
    refine Or.inl ⟨f ++ (u ++ g), ?_, ?_⟩
    · have hmem := Text.mem_splitAt_of_framed hline ⟨hleft, hright⟩
      simpa using hmem
    · have hleft : isWord left.getLast? = isWord ([] : List Char).getLast? :=
        not_isWord_newline hleft
      have hright : isWord right.head? = isWord ([] : List Char).head? :=
        not_isWord_newline hright
      obtain ⟨y', hmatch'⟩ := hmatch.reframe hq hleft hright hg
      exact occurs_iff.mpr ⟨f, u ++ (g ++ []), by rw [List.append_nil], y', hmatch'⟩
  · rintro (⟨line, hline, h⟩ | h)
    · exact h.of_line hq hline
    · exact h.occurs

/-- No match of the pattern takes a newline. -/
def staysInLine : Pattern → Bool
  | .empty | .test _ => true
  | .char set => set.staysInLine
  | .seq a b | .alt a b => a.staysInLine && b.staysInLine
  | .optional a _ | .repeated a _ | .star a _ => a.staysInLine

theorem Matches.takes_inLine (h : q.Matches x y) (hq : q.staysInLine = true) :
    ∃ u, Takes x y u ∧ '\n' ∉ u := by
  have hboth : ∀ {x y z : Place}, (∃ u, Takes x y u ∧ '\n' ∉ u) → (∃ v, Takes y z v ∧ '\n' ∉ v) →
      ∃ w, Takes x z w ∧ '\n' ∉ w := by
    rintro x y z ⟨u, hu, hu'⟩ ⟨v, hv, hv'⟩
    exact ⟨u ++ v, hu.trans hv, List.not_mem_append hu' hv'⟩
  induction h with
  | empty x => exact ⟨[], takes_nil x, List.not_mem_nil⟩
  | @char set c b cs hc =>
    refine ⟨[c], ⟨rfl, rfl⟩, ?_⟩
    intro hmem
    rw [← List.mem_singleton.mp hmem, CharSet.not_contains_newline hq] at hc
    cases hc
  | @test t x ht => exact ⟨[], takes_nil x, List.not_mem_nil⟩
  | seq _ _ iha ihb =>
    obtain ⟨hqa, hqb⟩ := Bool.and_eq_true_iff.mp hq
    exact hboth (iha hqa) (ihb hqb)
  | first b _ iha => exact iha (Bool.and_eq_true_iff.mp hq).1
  | second a _ ihb => exact ihb (Bool.and_eq_true_iff.mp hq).2
  | absent a greedy x => exact ⟨[], takes_nil x, List.not_mem_nil⟩
  | present greedy _ iha => exact iha hq
  | once greedy _ iha => exact iha hq
  | again _ _ iha ihmore => exact hboth (iha hq) (ihmore hq)
  | none a greedy x => exact ⟨[], takes_nil x, List.not_mem_nil⟩
  | more _ _ iha ihmore => exact hboth (iha hq) (ihmore hq)

theorem not_crosses_of_staysInLine (hq : q.staysInLine = true) : ¬q.Crosses text := by
  rintro ⟨front, u, y, _, hmatch, hu⟩
  obtain ⟨v, ⟨hv, _⟩, hnotMem⟩ := hmatch.takes_inLine hq
  rw [List.append_cancel_right hv] at hu
  exact hnotMem hu

end Pattern

/-- A match of the rule goes over the end of a line of the content. -/
def LeakRule.Crosses (r : LeakRule) (content : String) : Prop :=
  ∃ q, Pattern.ofText? r.regex = some q ∧ q.Crosses content.toList

/-- One of the patterns is in the text. -/
def Classification.isIn (c : Classification LeakPattern) (text : String) : Bool :=
  c.patterns.any fun q => q.program.isIn text

namespace LeakPolicy

variable {p : LeakPolicy} {content line name : String} {c d : Classification LeakPattern}

/-- The classes stand in the order of their priorities, under names of their own. -/
structure Ranked (p : LeakPolicy) : Prop where
  sorted : p.classifications.Pairwise fun c d => d.priority ≤ c.priority
  apart : (p.classifications.map Classification.name).Nodup
  named : ∀ c ∈ p.classifications, c.name ≠ publicClass

/-- Some of the findings are of this class, and none is of a class with a higher priority. -/
def IsHighest (p : LeakPolicy) (found : List Finding) (name : String) : Prop :=
  (∃ f ∈ found, f.classification = name) ∧
    ∃ c ∈ p.classifications, c.name = name ∧
      ∀ f ∈ found, ∀ d ∈ p.classifications, d.name = f.classification → d.priority ≤ c.priority

/-- The class of the content is what the findings say. -/
def Agrees (p : LeakPolicy) (content : String) : Prop :=
  (p.classify content = publicClass ↔ p.scan content = []) ∧
    (p.classify content ≠ publicClass → p.IsHighest (p.scan content) (p.classify content))

theorem map_find?_patterns (cs : List (Classification LeakPattern)) :
    ((cs.flatMap fun c => c.patterns.map fun q => (c.name, q)).find?
      fun (_, q) => q.program.isIn content).map Prod.fst =
        (cs.find? fun c => c.isIn content).map Classification.name := by
  induction cs with
  | nil => rfl
  | cons c cs ih =>
    rw [List.flatMap_cons, List.find?_append, Option.map_or, ih, List.find?_map, Option.map_map,
      List.find?_cons]
    change Option.or ((c.patterns.find? fun q => q.program.isIn content).map fun _ => c.name) _ = _
    cases hin : c.isIn content with
    | true =>
      have hfound := List.find?_isSome.mpr (List.any_eq_true.mp hin)
      obtain ⟨q, hq⟩ := Option.isSome_iff_exists.mp hfound
      rw [hq]
      rfl
    | false =>
      rw [List.find?_eq_none.mpr (by simpa [Classification.isIn] using hin)]
      rfl

theorem classify_eq (p : LeakPolicy) (content : String) : p.classify content =
    ((p.classifications.find? fun c => c.isIn content).map Classification.name).getD
      publicClass := by
  rw [← map_find?_patterns]
  unfold classify patterns
  split
  next hfind => rw [hfind]; rfl
  next hfind => rw [hfind]; rfl

/-- The content has the name of the first class that is in it, and that is one with the highest
priority. -/
theorem exists_class (hp : p.Ranked) (hd : d ∈ p.classifications) (h : d.isIn content = true) :
    ∃ c ∈ p.classifications, c.isIn content = true ∧ p.classify content = c.name ∧
      ∀ e ∈ p.classifications, e.isIn content = true → e.priority ≤ c.priority := by
  have hsome : (p.classifications.find? fun c => c.isIn content).isSome = true :=
    List.find?_isSome.mpr ⟨d, hd, h⟩
  obtain ⟨c, hfind⟩ := Option.isSome_iff_exists.mp hsome
  obtain ⟨hc, before, behind, hsplit, hbefore⟩ := List.find?_eq_some_iff_append.mp hfind
  refine ⟨c, List.mem_of_find?_eq_some hfind, hc, by rw [classify_eq, hfind]; rfl, ?_⟩
  intro e he hin
  have hsorted := hp.sorted
  rw [hsplit] at he hsorted
  rcases List.mem_append.mp he with he | he
  · have hout := hbefore e he
    rw [hin] at hout
    cases hout
  · rcases List.mem_cons.mp he with rfl | he
    · exact Int.le_refl _
    · exact List.rel_of_pairwise_cons (List.pairwise_append.mp hsorted).2.1 he

theorem classify_eq_public_iff (hp : p.Ranked) : p.classify content = publicClass ↔
    ∀ c ∈ p.classifications, c.isIn content = false := by
  constructor
  · intro hpublic d hd
    rw [Bool.eq_false_iff]
    intro hin
    obtain ⟨c, hc, _, hclass, _⟩ := exists_class hp hd hin
    exact hp.named c hc (hclass.symm.trans hpublic)
  · intro hout
    rw [classify_eq, List.find?_eq_none.mpr (by simpa using hout)]
    rfl

theorem exists_class_of_classify (hp : p.Ranked) (h : p.classify content ≠ publicClass) :
    ∃ c ∈ p.classifications, c.isIn content = true ∧ p.classify content = c.name ∧
      ∀ e ∈ p.classifications, e.isIn content = true → e.priority ≤ c.priority := by
  have hin : ∃ d ∈ p.classifications, d.isIn content = true := by
    simpa using mt (classify_eq_public_iff hp).mpr h
  obtain ⟨d, hd, hin⟩ := hin
  exact exists_class hp hd hin

theorem mem_patterns (hc : c ∈ p.classifications) {pattern : LeakPattern}
    (h : pattern ∈ c.patterns) : (c.name, pattern) ∈ p.patterns :=
  List.mem_flatMap.mpr ⟨c, hc, List.mem_map.mpr ⟨pattern, h, rfl⟩⟩

/-- The scan finds something of a class when one of its patterns is in a line. -/
theorem exists_finding_iff (hp : p.IsSolid) : (∃ f ∈ p.scan content, f.classification = name) ↔
    ∃ c ∈ p.classifications, c.name = name ∧
      ∃ line ∈ Text.lines content, c.isIn line = true := by
  constructor
  · rintro ⟨f, hf, rfl⟩
    obtain ⟨line, hline, hscan⟩ := line_of_mem_scan hf
    obtain ⟨named, hmem, hfinding⟩ := List.mem_filterMap.mp hscan
    obtain ⟨_, _, hclass, hin⟩ := finding?_eq_some hfinding
    obtain ⟨c, hc, hnamed⟩ := List.mem_flatMap.mp hmem
    obtain ⟨q, hq, rfl⟩ := List.mem_map.mp hnamed
    exact ⟨c, hc, hclass.symm, line, List.mem_of_getElem? hline, List.any_eq_true.mpr ⟨q, hq, hin⟩⟩
  · rintro ⟨c, hc, rfl, line, hline, hin⟩
    obtain ⟨pattern, hpattern, hin⟩ := List.any_eq_true.mp hin
    have hmem := mem_patterns hc hpattern
    obtain ⟨q, hq, hprogram⟩ := hp _ hmem
    obtain ⟨i, hi⟩ := List.mem_iff_getElem?.mp hline
    obtain ⟨f, hf⟩ := exists_finding? hq hprogram hin (i + 1)
    obtain ⟨_, _, hclass, _⟩ := finding?_eq_some hf
    exact ⟨f, mem_scan_of_finding? hi hmem hf, hclass⟩

theorem isIn_of_line (hp : p.IsSolid) (hc : c ∈ p.classifications)
    (hline : line ∈ Text.lines content) (h : c.isIn line = true) : c.isIn content = true := by
  obtain ⟨pattern, hpattern, hin⟩ := List.any_eq_true.mp h
  obtain ⟨q, hq, hprogram⟩ := hp _ (mem_patterns hc hpattern)
  obtain ⟨w, hw, rfl⟩ := List.mem_map.mp hline
  refine List.any_eq_true.mpr ⟨pattern, hpattern, ?_⟩
  rw [hprogram, Program.isIn_ofPattern_iff] at hin ⊢
  rw [String.toList_ofList] at hin
  exact Pattern.Occurs.of_line (Pattern.asksForWords_of_isSolid hq) hw hin

/-- Scanning and classifying agree when the scan finds something of the class. -/
theorem agrees_iff (hsolid : p.IsSolid) (hp : p.Ranked) : p.Agrees content ↔
    (p.classify content ≠ publicClass →
      ∃ f ∈ p.scan content, f.classification = p.classify content) := by
  constructor
  · rintro ⟨_, hhighest⟩ hclass
    exact (hhighest hclass).1
  intro hfound
  -- What is found in a line is in the content, so it counts for the class.
  have hscanned : ∀ f ∈ p.scan content, ∃ d ∈ p.classifications,
      d.name = f.classification ∧ d.isIn content = true := by
    intro f hf
    obtain ⟨d, hd, hname, line, hline, hin⟩ := (exists_finding_iff hsolid).mp ⟨f, hf, rfl⟩
    exact ⟨d, hd, hname, isIn_of_line hsolid hd hline hin⟩
  refine ⟨⟨?_, ?_⟩, ?_⟩
  · intro hpublic
    refine List.eq_nil_iff_forall_not_mem.mpr fun f hf => ?_
    obtain ⟨d, hd, _, hin⟩ := hscanned f hf
    rw [(classify_eq_public_iff hp).mp hpublic d hd] at hin
    cases hin
  · intro hnone
    by_contra hclass
    obtain ⟨f, hf, _⟩ := hfound hclass
    rw [hnone] at hf
    cases hf
  · intro hclass
    obtain ⟨c, hc, _, hname, hhighest⟩ := exists_class_of_classify hp hclass
    refine ⟨hfound hclass, c, hc, hname.symm, ?_⟩
    intro f hf d hd hdname
    obtain ⟨d', hd', hname', hin⟩ := hscanned f hf
    rw [List.inj_on_of_nodup_map hp.apart hd hd' (hdname.trans hname'.symm)]
    exact hhighest d' hd' hin

theorem builtin_ranked : builtin.Ranked := by
  rw [builtin_eq]
  refine ⟨List.pairwise_map.mpr (by decide), ?_, List.forall_mem_map.mpr (by decide)⟩
  rw [List.map_map]
  decide

/-- Of the built-in rules only the one for passwords takes newlines, and it is one for secrets. -/
theorem builtinRules_stayInLine : ∀ c ∈ builtinRules, ∀ r ∈ c.patterns,
    (Pattern.ofText? r.regex).all Pattern.staysInLine = true ∨
      c.name = "secret" ∧ r.id = "HARDCODED_PASSWORD" := by
  decide +kernel

theorem compiledClass_mem {c : Classification LeakRule} (hc : c ∈ builtinRules) :
    compiledClass c ∈ builtin.classifications := by
  rw [builtin_eq]
  exact List.mem_map_of_mem hc

/-- No class comes before the secrets. -/
theorem builtin_secret_first (hc : c ∈ builtin.classifications) (hd : d ∈ builtin.classifications)
    (hname : d.name = "secret") (h : d.priority ≤ c.priority) : c.name = "secret" := by
  have hrules : ∀ c ∈ builtinRules, ∀ d ∈ builtinRules, d.name = "secret" →
      d.priority ≤ c.priority → c.name = "secret" := by
    decide
  rw [builtin_eq] at hc hd
  obtain ⟨a, ha, rfl⟩ := List.mem_map.mp hc
  obtain ⟨b, hb, rfl⟩ := List.mem_map.mp hd
  exact hrules a ha b hb hname h

/-- A match over the end of a line is one of a password, and makes the content secret. -/
theorem secret_of_crosses {named : String × LeakPattern} (hmem : named ∈ builtin.patterns)
    (h : named.2.rule.Crosses content) :
    named.2.rule.id = "HARDCODED_PASSWORD" ∧ builtin.classify content = "secret" := by
  obtain ⟨c, hc, r, hr, rfl⟩ := of_mem_builtin hmem
  obtain ⟨q, hq, hcrosses⟩ : r.Crosses content := h
  have hd := compiledClass_mem hc
  have hin : (compiledClass c).isIn content = true := by
    refine List.any_eq_true.mpr ⟨compiledRule r, List.mem_map_of_mem hr, ?_⟩
    rw [compiledRule, hq]
    exact (Program.isIn_ofPattern_iff q content).mpr hcrosses.occurs
  rcases builtinRules_stayInLine c hc r hr with hstays | ⟨hname, hid⟩
  · rw [hq] at hstays
    exact absurd hcrosses (Pattern.not_crosses_of_staysInLine hstays)
  obtain ⟨e, he, _, hclass, hhighest⟩ := exists_class builtin_ranked hd hin
  refine ⟨hid, ?_⟩
  rw [hclass]
  exact builtin_secret_first he hd hname (hhighest _ hd hin)

/-- A built-in class that is in a content is in a line of it, or one of its rules goes over the
end of a line. -/
theorem line_or_crosses (hc : c ∈ builtin.classifications) (h : c.isIn content = true) :
    (∃ line ∈ Text.lines content, c.isIn line = true) ∨
      ∃ named ∈ builtin.patterns, named.2.rule.Crosses content := by
  obtain ⟨pattern, hpattern, hin⟩ := List.any_eq_true.mp h
  have hmem := mem_patterns hc hpattern
  obtain ⟨b, hb, r, hr, hnamed⟩ := of_mem_builtin hmem
  obtain ⟨_, rfl⟩ := Prod.mk.inj hnamed
  obtain ⟨q, hq, hsolid⟩ := (Option.any_eq_true _ _).mp (builtinRules_solid b hb r hr)
  have hprogram : (compiledRule r).program = .ofPattern q := by
    rw [compiledRule, hq]
    rfl
  rw [hprogram, Program.isIn_ofPattern_iff] at hin
  rcases (Pattern.occurs_iff_line_or_crosses (Pattern.asksForWords_of_isSolid hsolid)).mp hin with
    ⟨w, hw, hoccurs⟩ | hcrosses
  · refine Or.inl ⟨String.ofList w, List.mem_map.mpr ⟨w, hw, rfl⟩,
      List.any_eq_true.mpr ⟨compiledRule r, hpattern, ?_⟩⟩
    rw [hprogram, Program.isIn_ofPattern_iff, String.toList_ofList]
    exact hoccurs
  · exact Or.inr ⟨_, hmem, q, hq, hcrosses⟩

/-- Scanning by lines and classifying agree on the built-in patterns, but for a password that is
assigned over the end of a line: there the content is secret, and the two agree just when some
line holds a secret as well. -/
theorem classify_agrees_iff (content : String) :
    (builtin.Agrees content ↔
      ((∃ named ∈ builtin.patterns, named.2.rule.Crosses content) →
        ∃ f ∈ builtin.scan content, f.classification = "secret")) ∧
    ∀ named ∈ builtin.patterns, named.2.rule.Crosses content →
      named.2.rule.id = "HARDCODED_PASSWORD" ∧ builtin.classify content = "secret" := by
  refine ⟨?_, fun named hmem hcrosses => secret_of_crosses hmem hcrosses⟩
  rw [agrees_iff builtin_isSolid builtin_ranked]
  constructor
  · rintro hfound ⟨named, hmem, hcrosses⟩
    obtain ⟨_, hsecret⟩ := secret_of_crosses hmem hcrosses
    rw [hsecret] at hfound
    exact hfound (by decide)
  · intro hfound hclass
    obtain ⟨c, hc, hin, hname, _⟩ := exists_class_of_classify builtin_ranked hclass
    rcases line_or_crosses hc hin with hline | ⟨named, hmem, hcrosses⟩
    · exact (exists_finding_iff builtin_isSolid).mpr ⟨c, hc, hname.symm, hline⟩
    · obtain ⟨_, hsecret⟩ := secret_of_crosses hmem hcrosses
      rw [hsecret]
      exact hfound ⟨named, hmem, hcrosses⟩

/-- A password in the line below its name is secret, and every line of the text is clean. -/
theorem password_below_is_missed :
    builtin.classify "password = \n\"hunter2hunter2\"" = "secret" ∧
      builtin.scan "password = \n\"hunter2hunter2\"" = [] ∧
      ¬builtin.Agrees "password = \n\"hunter2hunter2\"" := by
  have hrun : builtin.classify "password = \n\"hunter2hunter2\"" = "secret" ∧
      (builtin.scan "password = \n\"hunter2hunter2\"").isEmpty = true := by
    rw [builtin_eq]
    decide +kernel
  obtain ⟨hclass, hscan⟩ := hrun
  rw [List.isEmpty_iff] at hscan
  refine ⟨hclass, hscan, ?_⟩
  rintro ⟨hpublic, _⟩
  rw [hpublic.mpr hscan] at hclass
  exact absurd hclass (by decide)

end LeakPolicy

end Synthesis
