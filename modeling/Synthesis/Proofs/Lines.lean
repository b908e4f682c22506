import Synthesis.Proofs.Padding
import Synthesis.Composition

/-!
The lines of composed code. Composition moves lines to the right, trims imports, drops newlines
and puts empty lines in between, and a dispatcher adds its headings. So a property that the lines
of all parts and the headings have, and that does not depend on blanks around a line, holds of
the lines of the whole.
-/
namespace Synthesis

namespace Text

variable {sep : Char} {cs w : List Char} {s t line : String}

theorem splitAt_ne_nil (sep : Char) (cs : List Char) : splitAt sep cs ≠ [] := by
  cases cs with
  | nil => exact List.cons_ne_nil _ _
  | cons c cs =>
    unfold splitAt
    split
    · exact List.cons_ne_nil _ _
    · split
      · exact List.cons_ne_nil _ _
      · exact List.cons_ne_nil _ _

theorem splitAt_append_cons (sep : Char) (cs ds : List Char) :
    splitAt sep (cs ++ sep :: ds) = splitAt sep cs ++ splitAt sep ds := by
  induction cs with
  | nil => simp [splitAt]
  | cons c cs ih =>
    rw [List.cons_append, splitAt, splitAt, ih]
    split
    · rfl
    · cases hcs : splitAt sep cs with
      | nil => exact absurd hcs (splitAt_ne_nil sep cs)
      | cons w ws => rfl

theorem splitAt_of_notMem (h : sep ∉ cs) : splitAt sep cs = [cs] := by
  induction cs with
  | nil => rfl
  | cons c cs ih =>
    obtain ⟨hc, hcs⟩ := not_or.mp (mt List.mem_cons.mpr h)
    rw [splitAt, if_neg (Ne.symm hc), ih hcs]

theorem notMem_of_mem_splitAt (h : w ∈ splitAt sep cs) : sep ∉ w := by
  induction cs generalizing w with
  | nil =>
    rw [List.mem_singleton.mp h]
    exact List.not_mem_nil
  | cons c cs ih =>
    rw [splitAt] at h
    split at h
    · rcases List.mem_cons.mp h with rfl | h
      · exact List.not_mem_nil
      · exact ih h
    · rename_i hc
      cases hcs : splitAt sep cs with
      | nil => exact absurd hcs (splitAt_ne_nil sep cs)
      | cons v ws =>
        rw [hcs] at h ih
        rcases List.mem_cons.mp h with rfl | h
        · exact List.not_mem_cons_of_ne_of_not_mem (Ne.symm hc) (ih List.mem_cons_self)
        · exact ih (List.mem_cons_of_mem v h)

theorem lines_ne_nil (s : String) : lines s ≠ [] := by
  simpa [lines] using splitAt_ne_nil '\n' s.toList

theorem lines_append (s t : String) : lines (s ++ "\n" ++ t) = lines s ++ lines t := by
  unfold lines
  rw [String.toList_append, String.toList_append, List.append_assoc, ← List.map_append]
  exact congrArg _ (splitAt_append_cons '\n' s.toList t.toList)

theorem lines_of_notMem (h : '\n' ∉ s.toList) : lines s = [s] := by
  unfold lines
  rw [splitAt_of_notMem h, List.map_singleton, String.ofList_toList]

theorem notMem_of_mem_lines (h : line ∈ lines s) : '\n' ∉ line.toList := by
  obtain ⟨w, hw, rfl⟩ := List.mem_map.mp h
  rw [String.toList_ofList]
  exact notMem_of_mem_splitAt hw

theorem join_cons {sep : String} {xs : List String} (hxs : xs ≠ []) (x : String) :
    join sep (x :: xs) = x ++ sep ++ join sep xs := by
  cases xs with
  | nil => exact absurd rfl hxs
  | cons y xs => rfl

theorem join_append {sep : String} {xs ys : List String} (hxs : xs ≠ []) (hys : ys ≠ []) :
    join sep (xs ++ ys) = join sep xs ++ sep ++ join sep ys := by
  induction xs with
  | nil => exact absurd rfl hxs
  | cons x xs ih =>
    by_cases hrest : xs = []
    · rw [hrest]
      exact join_cons hys x
    · rw [List.cons_append, join_cons (by simp [hrest]), join_cons hrest, ih hrest]
      simp only [String.append_assoc]

theorem lines_join {xs : List String} (hxs : xs ≠ []) :
    lines (join "\n" xs) = xs.flatMap lines := by
  induction xs with
  | nil => exact absurd rfl hxs
  | cons x xs ih =>
    by_cases hrest : xs = []
    · rw [hrest, List.flatMap_singleton]
      rfl
    · rw [join_cons hrest, lines_append, ih hrest, List.flatMap_cons]

theorem flatMap_lines {xs : List String} (h : ∀ x ∈ xs, '\n' ∉ x.toList) :
    xs.flatMap lines = xs := by
  induction xs with
  | nil => rfl
  | cons x xs ih =>
    obtain ⟨hx, hlater⟩ := List.forall_mem_cons.mp h
    rw [List.flatMap_cons, lines_of_notMem hx, ih hlater]
    rfl

theorem join_splitAt (cs : List Char) :
    join "\n" ((splitAt '\n' cs).map String.ofList) = String.ofList cs := by
  induction cs with
  | nil => rfl
  | cons c cs ih =>
    rw [splitAt]
    by_cases hc : c = '\n'
    · rw [if_pos hc, List.map_cons, join_cons (by simpa using splitAt_ne_nil '\n' cs), ih, hc,
        ← List.singleton_append, String.ofList_append]
      rfl
    · rw [if_neg hc]
      cases hcs : splitAt '\n' cs with
      | nil => exact absurd hcs (splitAt_ne_nil '\n' cs)
      | cons w ws =>
        rw [hcs, List.map_cons] at ih
        rw [String.ofList_cons, ← ih]
        dsimp only
        rw [List.map_cons, String.ofList_cons]
        by_cases hws : ws.map String.ofList = []
        · rw [hws]
          rfl
        · rw [join_cons hws, join_cons hws]
          simp only [String.append_assoc]

theorem join_lines (s : String) : join "\n" (lines s) = s := by
  rw [lines, join_splitAt, String.ofList_toList]

theorem strip_append_left {p : Char → Bool} {left : List Char} (h : ∀ c ∈ left, p c = true)
    (cs : List Char) : strip p (left ++ cs) = strip p cs := by
  unfold strip
  rw [List.dropWhile_append_of_pos h]

theorem strip_append_right {p : Char → Bool} {right : List Char} (h : ∀ c ∈ right, p c = true)
    (cs : List Char) : strip p (cs ++ right) = strip p cs := by
  have hright : right.dropWhile p = [] := List.dropWhile_eq_nil_iff.mpr h
  unfold strip dropRightWhile
  rw [List.dropWhile_append]
  split
  · rename_i hempty
    rw [hright, List.isEmpty_iff.mp hempty]
  · rw [List.reverse_append, List.dropWhile_append_of_pos]
    intro c hc
    exact h c (List.mem_reverse.mp hc)

theorem strip_dropRightWhile (p : Char → Bool) (cs : List Char) :
    strip p (dropRightWhile p cs) = strip p cs := by
  obtain ⟨right, hcs, hright⟩ := exists_dropRightWhile p cs
  conv_rhs => rw [hcs, strip_append_right hright]

theorem length_strip_le (p : Char → Bool) (cs : List Char) : (strip p cs).length ≤ cs.length := by
  obtain ⟨left, right, hcs, _⟩ := exists_strip p cs
  have hlength := congrArg List.length hcs
  rw [List.length_append, List.length_append] at hlength
  omega

/-- A trimmed text begins with a character that stays. -/
theorem head_of_strip_eq {p : Char → Bool} {c : Char} (h : strip p (c :: cs) = c :: cs) :
    p c = false := by
  rw [Bool.eq_false_iff]
  intro hc
  have hshort := length_strip_le p cs
  rw [← List.singleton_append, strip_append_left (by simpa using hc)] at h
  rw [h, List.length_append, List.length_singleton] at hshort
  omega

/-- A trimmed text ends with a character that stays. -/
theorem last_of_strip_eq {p : Char → Bool} {c : Char} (h : strip p (cs ++ [c]) = cs ++ [c]) :
    p c = false := by
  rw [Bool.eq_false_iff]
  intro hc
  have hshort := length_strip_le p cs
  rw [strip_append_right (by simpa using hc)] at h
  rw [h, List.length_append, List.length_singleton] at hshort
  omega

/-- Whatever stands between two trimmed texts, the whole is trimmed. -/
theorem strip_append_append {p : Char → Bool} {first last : List Char}
    (hfirst : strip p first = first) (hlast : strip p last = last) (hsome : first ≠ [])
    (hsome' : last ≠ []) (between : List Char) :
    strip p (first ++ (between ++ last)) = first ++ (between ++ last) := by
  obtain ⟨a, as, rfl⟩ := List.exists_cons_of_ne_nil hsome
  obtain ⟨bs, b, rfl⟩ := (List.eq_nil_or_concat last).resolve_left hsome'
  rw [List.concat_eq_append] at hlast ⊢
  have hstart : p a = false := head_of_strip_eq hfirst
  have hend : p b = false := last_of_strip_eq hlast
  rw [strip, List.cons_append, List.dropWhile_cons_of_neg (by simp [hstart]), ← List.cons_append,
    ← List.append_assoc, ← List.append_assoc, dropRightWhile_append_cons hend]
  rfl

theorem strip_strip (p : Char → Bool) (cs : List Char) : strip p (strip p cs) = strip p cs := by
  obtain ⟨left, right, hcs, hleft, hright⟩ := exists_strip p cs
  conv_rhs => rw [hcs, strip_append_right hright, strip_append_left hleft]

theorem trim_trim (s : String) : trim (trim s) = trim s := by
  rw [trim, trim, String.toList_ofList, strip_strip]

/-- The empty line has the property, and it does not depend on the blanks around a line. -/
structure IgnoresBlanks (P : String → Prop) : Prop where
  empty : P ""
  trim : ∀ {s t : String}, trim s = trim t → P s → P t

/-- Every line of the text has the property. -/
def AllLines (P : String → Prop) (s : String) : Prop := ∀ line ∈ lines s, P line

variable {P : String → Prop}

theorem allLines_append : AllLines P (s ++ "\n" ++ t) ↔ AllLines P s ∧ AllLines P t := by
  unfold AllLines
  rw [lines_append, List.forall_mem_append]

theorem allLines_of_notMem (h : '\n' ∉ s.toList) : AllLines P s ↔ P s := by
  unfold AllLines
  rw [lines_of_notMem h, List.forall_mem_singleton]

theorem allLines_empty : AllLines P "" ↔ P "" := allLines_of_notMem (by simp)

theorem AllLines.append_two (hempty : P "") (hs : AllLines P s) (ht : AllLines P t) :
    AllLines P (s ++ "\n\n" ++ t) := by
  have hsplit : s ++ "\n\n" = s ++ "\n" ++ "" ++ "\n" := by
    rw [String.append_empty, String.append_assoc]
    rfl
  rw [hsplit]
  exact allLines_append.mpr ⟨allLines_append.mpr ⟨hs, allLines_empty.mpr hempty⟩, ht⟩

/-- Texts with newlines between them. -/
theorem AllLines.join (hempty : P "") {xs : List String} (h : ∀ x ∈ xs, AllLines P x) :
    AllLines P (join "\n" xs) ∧ AllLines P (Text.join "\n\n" xs) := by
  induction xs with
  | nil => exact ⟨allLines_empty.mpr hempty, allLines_empty.mpr hempty⟩
  | cons x rest ih =>
    obtain ⟨hx, hrest⟩ := List.forall_mem_cons.mp h
    cases rest with
    | nil => exact ⟨hx, hx⟩
    | cons y rest =>
      obtain ⟨hone, htwo⟩ := ih hrest
      exact ⟨allLines_append.mpr ⟨hx, hone⟩, hx.append_two hempty htwo⟩

/-- The lines between newlines at the beginning and at the end are lines of the text. -/
theorem AllLines.of_newlines {left right : List Char} (hleft : ∀ c ∈ left, isNewline c = true)
    (hright : ∀ c ∈ right, isNewline c = true)
    (h : AllLines P (String.ofList (left ++ cs ++ right))) : AllLines P (String.ofList cs) := by
  have hlast : AllLines P (String.ofList (left ++ cs)) := by
    cases right with
    | nil => simpa using h
    | cons c right =>
      have hc : c = '\n' := of_decide_eq_true (hright c List.mem_cons_self)
      subst hc
      rw [← List.singleton_append, ← List.append_assoc, String.ofList_append,
        String.ofList_append] at h
      exact (allLines_append.mp h).1
  rcases List.eq_nil_or_concat left with rfl | ⟨left, c, rfl⟩
  · exact hlast
  · have hc : c = '\n' := of_decide_eq_true (hleft c (by simp))
    subst hc
    rw [List.concat_eq_append, String.ofList_append, String.ofList_append] at hlast
    exact (allLines_append.mp hlast).2

theorem AllLines.dropLastNewlines (h : AllLines P s) : AllLines P (dropLastNewlines s) := by
  obtain ⟨right, hs, hright⟩ := exists_dropRightWhile isNewline s.toList
  have hnone : ∀ c ∈ ([] : List Char), isNewline c = true := by simp
  refine AllLines.of_newlines hnone hright ?_
  rw [List.nil_append, ← hs, String.ofList_toList]
  exact h

theorem AllLines.dropOuterNewlines (h : AllLines P s) : AllLines P (dropOuterNewlines s) := by
  obtain ⟨left, right, hs, hleft, hright⟩ := exists_strip isNewline s.toList
  refine AllLines.of_newlines hleft hright ?_
  rw [← hs, String.ofList_toList]
  exact h

end Text

namespace Composition

open Text

variable {P : String → Prop} {code : String}

theorem allLines_indent (hP : IgnoresBlanks P) (h : AllLines P code) :
    AllLines P (indent branchMargin code) := by
  refine (AllLines.join hP.empty ?_).1
  intro x hx
  obtain ⟨line, hline, rfl⟩ := List.mem_map.mp hx
  have hnewline := notMem_of_mem_lines hline
  split
  · rename_i hempty
    rw [hempty]
    exact allLines_empty.mpr hP.empty
  · have hall : branchMargin.toList.all (fun c => isBlank c && c != '\n') = true := by decide
    have hmargin : ∀ c ∈ branchMargin.toList, isBlank c = true ∧ c ≠ '\n' := by
      simpa [-List.all_eq_true] using List.all_eq_true.mp hall
    rw [allLines_of_notMem]
    · refine hP.trim ?_ (h.dropLastNewlines line hline)
      unfold trim
      rw [String.toList_append, strip_append_left fun c hc => (hmargin c hc).1]
    · rw [String.toList_append]
      refine List.not_mem_append ?_ hnewline
      exact fun hmem => (hmargin _ hmem).2 rfl

theorem allLines_sequentialCode (hP : IgnoresBlanks P) {codes : List String}
    (h : ∀ code ∈ codes, AllLines P code) : AllLines P (sequentialCode codes) := by
  refine (AllLines.join hP.empty ?_).2
  intro x hx
  obtain ⟨code, hcode, rfl⟩ := List.mem_map.mp hx
  exact (h code hcode).dropLastNewlines

theorem allLines_body (hP : IgnoresBlanks P) (h : AllLines P code) : AllLines P (body code) := by
  refine AllLines.dropOuterNewlines (AllLines.join hP.empty ?_).1
  intro line hline
  obtain ⟨hline, _⟩ := List.mem_filter.mp hline
  exact (allLines_of_notMem (notMem_of_mem_lines hline)).mpr (h line hline)

theorem allLines_of_mem_imports (hP : IgnoresBlanks P) (h : AllLines P code) {head : String}
    (hhead : head ∈ imports code) : AllLines P head := by
  obtain ⟨line, hline, rfl⟩ := List.mem_map.mp hhead
  obtain ⟨hline, _⟩ := List.mem_filter.mp hline
  have hnewline : '\n' ∉ (trim line).toList := mt mem_of_mem_trim (notMem_of_mem_lines hline)
  exact (allLines_of_notMem hnewline).mpr (hP.trim (trim_trim line).symm (h line hline))

theorem allLines_assembledCode (hP : IgnoresBlanks P) {codes : List String}
    (h : ∀ code ∈ codes, AllLines P code) : AllLines P (assembledCode codes) := by
  have hbodies : AllLines P (Text.join "\n\n" ((codes.map body).filter (· != ""))) := by
    refine (AllLines.join hP.empty ?_).2
    intro x hx
    obtain ⟨hx, _⟩ := List.mem_filter.mp hx
    obtain ⟨code, hcode, rfl⟩ := List.mem_map.mp hx
    exact allLines_body hP (h code hcode)
  have hheads : AllLines P (Text.join "\n" (distinct (codes.flatMap imports))) := by
    refine (AllLines.join hP.empty ?_).1
    intro head hhead
    obtain ⟨code, hcode, hhead⟩ := List.mem_flatMap.mp (mem_distinct.mp hhead)
    exact allLines_of_mem_imports hP (h code hcode) hhead
  unfold assembledCode
  dsimp only
  split
  · exact hbodies
  · exact hheads.append_two hP.empty hbodies

/-- The lines above the branches of a dispatcher: its title, and the conditions. -/
def headings (title : String) (subs : List Subproblem) : List String :=
  ("dispatch " ++ Text.quote title ++ ":") ::
    (subs.filter (·.condition != "")).map fun p => "  when " ++ p.condition ++ ":"

theorem allLines_heading {head rest : String} (hhead : AllLines P (head ++ ":"))
    (hrest : AllLines P rest) : AllLines P (head ++ ":\n" ++ rest) := by
  have hsplit : head ++ ":\n" = head ++ ":" ++ "\n" := by
    rw [String.append_assoc]
    rfl
  rw [hsplit]
  exact allLines_append.mpr ⟨hhead, hrest⟩

theorem allLines_fallbackText (hP : IgnoresBlanks P) (hotherwise : P "  otherwise:")
    {codes : List String} (h : ∀ code ∈ codes, AllLines P code) :
    AllLines P (fallbackText codes) := by
  unfold fallbackText
  split
  · exact allLines_empty.mpr hP.empty
  · have hcodes : AllLines P (Text.join "\n" (codes.map (indent branchMargin))) := by
      refine (AllLines.join hP.empty ?_).1
      intro x hx
      obtain ⟨code, hcode, rfl⟩ := List.mem_map.mp hx
      exact allLines_indent hP (h code hcode)
    have hlast := allLines_append.mpr ⟨hcodes, allLines_empty.mpr hP.empty⟩
    rw [String.append_empty] at hlast
    have hsplit : "  otherwise:\n" = "  otherwise:" ++ "\n" := by decide
    rw [hsplit, String.append_assoc]
    exact allLines_append.mpr ⟨(allLines_of_notMem (by decide)).mpr hotherwise, hlast⟩

theorem allLines_branches (hP : IgnoresBlanks P) {branches : List (Subproblem × Artifact)}
    (hcodes : ∀ x ∈ branches, AllLines P x.2.code)
    (hheads : ∀ x ∈ branches, AllLines P ("  when " ++ x.1.condition ++ ":")) {rest : String}
    (hrest : AllLines P rest) :
    AllLines P (String.join (branches.map fun x => branchText x.1.condition x.2.code) ++ rest) := by
  induction branches with
  | nil => simpa using hrest
  | cons x branches ih =>
    obtain ⟨hcode, hcodes⟩ := List.forall_mem_cons.mp hcodes
    obtain ⟨hhead, hheads⟩ := List.forall_mem_cons.mp hheads
    have hbranch := allLines_append.mpr ⟨allLines_indent hP hcode, ih hcodes hheads⟩
    have hshape : ∀ condition code rest, branchText condition code ++ rest =
        "  when " ++ condition ++ ":\n" ++ (indent branchMargin code ++ "\n" ++ rest) := by
      intro condition code rest
      unfold branchText
      simp only [String.append_assoc]
    rw [List.map_cons, String.join_cons, String.append_assoc, hshape]
    exact allLines_heading hhead hbranch

theorem allLines_dispatcherCode (hP : IgnoresBlanks P) (hotherwise : P "  otherwise:")
    {title : String} {parts : List (Subproblem × Artifact)}
    (hcodes : ∀ x ∈ parts, AllLines P x.2.code)
    (hheads : ∀ head ∈ headings title (parts.map (·.1)), AllLines P head) :
    AllLines P (dispatcherCode title parts) := by
  obtain ⟨htitle, hconditions⟩ := List.forall_mem_cons.mp hheads
  refine AllLines.dropLastNewlines ?_
  rw [String.append_assoc]
  refine allLines_heading htitle (allLines_branches hP ?_ ?_ ?_)
  · exact fun x hx => hcodes x (List.mem_filter.mp hx).1
  · intro x hx
    obtain ⟨hx, hcondition⟩ := List.mem_filter.mp hx
    refine hconditions _ (List.mem_map_of_mem (List.mem_filter.mpr ⟨?_, hcondition⟩))
    exact List.mem_map_of_mem hx
  · refine allLines_fallbackText hP hotherwise ?_
    intro code hcode
    obtain ⟨x, hx, rfl⟩ := List.mem_map.mp hcode
    exact hcodes x (List.mem_filter.mp hx).1

/-- The solutions that are composed are those of the parts. -/
theorem solvedFrom_eq_ok {i : Nat} {slots : Table Int} {parts : List Part}
    {solutions : List (Subproblem × Artifact)} (h : solvedFrom i slots parts = .ok solutions) :
    parts.map (fun p => (p.subproblem, p.solution)) =
      solutions.map fun x => (x.1, some x.2) := by
  induction parts generalizing i slots solutions with
  | nil =>
    cases h
    rfl
  | cons p rest ih =>
    unfold solvedFrom at h
    dsimp only at h
    split at h
    · cases h
    · split at h
      · cases h
      next a ha =>
        split at h
        · cases h
        · cases hlater : solvedFrom (i + 1)
              (slots.insert (p.subproblem.slotName p.index) p.index) rest with
          | error fault =>
            rw [hlater] at h
            cases h
          | ok later =>
            rw [hlater] at h
            cases h
            rw [List.map_cons, List.map_cons, ih hlater, ha]

theorem solved_eq_ok {parts : List Part} {solutions : List (Subproblem × Artifact)}
    (h : solved parts = .ok solutions) : ∀ x ∈ solutions, ∃ p ∈ parts, p.solution = some x.2 := by
  intro x hx
  have hmem : (x.1, some x.2) ∈ parts.map fun p => (p.subproblem, p.solution) := by
    rw [solvedFrom_eq_ok h]
    exact List.mem_map_of_mem hx
  obtain ⟨p, hp, heq⟩ := List.mem_map.mp hmem
  exact ⟨p, hp, congrArg Prod.snd heq⟩

end Composition

namespace Composer

open Text Synthesis.Composition

variable {P : String → Prop}

theorem compose_eq_ok {composer : Composer} {parts : List Part} {s : Specification} {a : Artifact}
    (h : composer.compose parts s = .ok a) :
    ∃ solutions, solved parts = .ok solutions ∧ composer.codeOf s solutions = .ok a.code := by
  unfold compose at h
  cases hsolved : solved parts with
  | error fault =>
    rw [hsolved] at h
    cases h
  | ok solutions =>
    rw [hsolved] at h
    cases hcode : composer.codeOf s solutions with
    | error fault =>
      simp only [hcode, bind, Except.bind] at h
      cases h
    | ok code =>
      simp only [hcode, bind, Except.bind] at h
      cases h
      exact ⟨solutions, rfl, hcode⟩

theorem allLines_codeOf (hP : IgnoresBlanks P) (hotherwise : P "  otherwise:")
    {composer : Composer} {s : Specification} {solutions : List (Subproblem × Artifact)}
    {code : String} (h : composer.codeOf s solutions = .ok code)
    (hcodes : ∀ x ∈ solutions, AllLines P x.2.code)
    (hheads : composer = .function →
      ∀ head ∈ headings s.summary (solutions.map (·.1)), AllLines P head) :
    AllLines P code := by
  cases composer with
  | sequential =>
    rw [← Except.ok.inj h]
    refine allLines_sequentialCode hP ?_
    intro code hcode
    obtain ⟨x, hx, rfl⟩ := List.mem_map.mp hcode
    exact hcodes x hx
  | function =>
    rw [← Except.ok.inj h]
    exact allLines_dispatcherCode hP hotherwise hcodes (hheads rfl)
  | code =>
    unfold codeOf at h
    dsimp only at h
    split at h
    · cases h
    · cases h
      refine allLines_assembledCode hP ?_
      intro code hcode
      obtain ⟨i, _, hi⟩ := List.mem_filterMap.mp hcode
      obtain ⟨x, hx, rfl⟩ := Option.map_eq_some_iff.mp hi
      exact hcodes x (List.mem_of_getElem? hx)

/-- What the lines of the parts and the headings have, the lines of the composed code have. -/
theorem allLines_compose (hP : IgnoresBlanks P) (hotherwise : P "  otherwise:")
    {composer : Composer} {parts : List Part} {s : Specification} {a : Artifact}
    (h : composer.compose parts s = .ok a)
    (hparts : ∀ p ∈ parts, ∀ b, p.solution = some b → AllLines P b.code)
    (hheads : composer = .function →
      ∀ head ∈ headings s.summary (parts.map (·.subproblem)), AllLines P head) :
    AllLines P a.code := by
  obtain ⟨solutions, hsolved, hcode⟩ := compose_eq_ok h
  have hmap := solvedFrom_eq_ok hsolved
  have hsubs : solutions.map (·.1) = parts.map (·.subproblem) := by
    have hfirst := congrArg (List.map Prod.fst) hmap
    simpa [Function.comp_def] using hfirst.symm
  refine allLines_codeOf hP hotherwise hcode ?_ ?_
  · intro x hx
    obtain ⟨p, hp, hsolution⟩ := solved_eq_ok hsolved x hx
    exact hparts p hp x.2 hsolution
  · rw [hsubs]
    exact hheads

end Composer

end Synthesis
