import Synthesis.Proofs.Assembly

/-!
A dispatcher can be read back. The lines of a branch are empty or moved to the right by four blanks,
and a heading has two blanks in front of it and then a letter; so a line of a branch is never taken
for a heading, whatever it says, and belongs to the heading above it. The newlines at the end of a
branch are lost and nothing else. A branch that is a dispatcher itself has none there, so it is read
as it was, and can be read in turn.
-/
namespace Synthesis

namespace Text

/-- The newlines at the end of a text make empty lines. -/
theorem lines_append_newlines {right : List Char} (h : ∀ c ∈ right, isNewline c = true)
    (cs : List Char) :
    ∃ blanks, (∀ line ∈ blanks, line = "") ∧
      lines (String.ofList (cs ++ right)) = lines (String.ofList cs) ++ blanks := by
  induction right generalizing cs with
  | nil => exact ⟨[], by simp, by simp⟩
  | cons c right ih =>
    obtain ⟨hc, hright⟩ := List.forall_mem_cons.mp h
    have hnewline : c = '\n' := of_decide_eq_true hc
    have hsplit : String.ofList (cs ++ [c]) = String.ofList cs ++ "\n" ++ "" := by
      rw [hnewline, String.ofList_append, String.append_empty]
    obtain ⟨blanks, hblanks, hlines⟩ := ih hright (cs ++ [c])
    refine ⟨"" :: blanks, by simpa using hblanks, ?_⟩
    rw [List.append_cons, hlines, hsplit, lines_append, List.append_assoc]
    rfl

theorem lines_dropLastNewlines (s : String) :
    ∃ blanks, (∀ line ∈ blanks, line = "") ∧ lines s = lines (dropLastNewlines s) ++ blanks := by
  obtain ⟨right, hs, hright⟩ := exists_dropRightWhile isNewline s.toList
  obtain ⟨blanks, hblanks, hlines⟩ :=
    lines_append_newlines hright (dropRightWhile isNewline s.toList)
  rw [← hs, String.ofList_toList] at hlines
  exact ⟨blanks, hblanks, hlines⟩

theorem dropRightWhile_append {p : Char → Bool} {right : List Char} (h : ∀ c ∈ right, p c = true)
    (cs : List Char) : dropRightWhile p (cs ++ right) = dropRightWhile p cs := by
  rw [dropRightWhile, dropRightWhile, List.reverse_append, List.dropWhile_append_of_pos]
  exact fun c hc => h c (List.mem_reverse.mp hc)

theorem dropLastNewlines_newline (s : String) :
    dropLastNewlines (s ++ "\n") = dropLastNewlines s := by
  rw [dropLastNewlines, dropLastNewlines, String.toList_append,
    dropRightWhile_append (by simp [isNewline])]

theorem dropLastNewlines_dropLastNewlines (s : String) :
    dropLastNewlines (dropLastNewlines s) = dropLastNewlines s := by
  obtain ⟨right, hs, hright⟩ := exists_dropRightWhile isNewline s.toList
  rw [dropLastNewlines, dropLastNewlines, String.toList_ofList]
  conv_rhs => rw [hs, dropRightWhile_append hright]

theorem notMem_hexText (width n : Nat) : '\n' ∉ hexText width n := by
  have hdigit : ∀ k < 16, '\n' ≠ Nat.digitChar k := by decide
  induction width generalizing n with
  | zero => exact List.not_mem_nil
  | succ width ih =>
    rw [hexText, List.mem_append, List.mem_singleton, not_or]
    exact ⟨ih (n / 16), hdigit (n % 16) (Nat.mod_lt n (by omega))⟩

theorem shortEscape?_ne {c e : Char} (h : shortEscape? c = some e) : '\n' ≠ e := by
  unfold shortEscape? at h
  split at h <;> cases h <;> decide

theorem notMem_quoteChar (c : Char) : '\n' ∉ quoteChar c := by
  unfold quoteChar
  split
  · rename_i hc
    rintro hmem
    rcases hc with rfl | rfl <;> exact absurd hmem (by decide)
  · split
    · rename_i hprintable
      rw [List.mem_singleton]
      rintro rfl
      exact absurd hprintable (by decide +kernel)
    · split
      · rename_i e he
        simp [shortEscape?_ne he]
      · dsimp only
        split
        · simp [notMem_hexText]
        · split
          · simp [notMem_hexText]
          · simp [notMem_hexText]

/-- A quoted text is on one line. -/
theorem notMem_quote (s : String) : '\n' ∉ (quote s).toList := by
  rw [quote, String.toList_ofList, List.mem_cons, List.mem_append, List.mem_flatMap]
  rintro (hquote | ⟨c, _, hc⟩ | hquote)
  · exact absurd hquote (by decide)
  · exact notMem_quoteChar c hc
  · exact absurd hquote (by decide)

end Text

namespace Dispatch

open Text Synthesis.Composition

/-- What stands above a branch of a dispatcher. -/
inductive Guard where
  | condition (text : String)
  | otherwise
  deriving Repr, DecidableEq

namespace Guard

def line : Guard → String
  | .condition text => "  when " ++ text ++ ":"
  | .otherwise => "  otherwise:"

/-- The guard that a line shows, if it is a heading. -/
def ofLine? (text : String) : Option Guard :=
  let inner := String.ofList (dropLead "  when ".toList text.toList).dropLast
  if line (.condition inner) = text then some (.condition inner)
  else if line .otherwise = text then some .otherwise
  else none

theorem ofLine?_line (guard : Guard) : ofLine? guard.line = some guard := by
  cases guard with
  | condition text =>
    have htext : (line (.condition text)).toList = "  when ".toList ++ (text.toList ++ [':']) := by
      simp [line]
    have hinner : (dropLead "  when ".toList (line (.condition text)).toList).dropLast =
        text.toList := by
      rw [dropLead, htext, if_pos (List.isPrefixOf_iff_prefix.mpr (List.prefix_append _ _)),
        List.drop_left, List.dropLast_concat]
    rw [ofLine?, hinner, String.ofList_toList, if_pos rfl]
  | otherwise => decide

/-- A line is read as a heading just when it is the heading of a guard. -/
theorem ofLine?_eq_some_iff {text : String} {guard : Guard} :
    ofLine? text = some guard ↔ text = guard.line := by
  constructor
  · intro h
    unfold ofLine? at h
    dsimp only at h
    split at h
    · rename_i hline
      rw [← Option.some.inj h, hline]
    · split at h
      · rename_i hline
        rw [← Option.some.inj h, hline]
      · cases h
  · rintro rfl
    exact ofLine?_line guard

/-- A line that begins with four blanks is no heading. -/
theorem ofLine?_indented (text : String) : ofLine? (branchMargin ++ text) = none := by
  rw [Option.eq_none_iff_forall_ne_some]
  intro guard hguard
  have hchars := congrArg String.toList (ofLine?_eq_some_iff.mp hguard)
  cases guard with
  | condition inner => simp [branchMargin, line] at hchars
  | otherwise => simp [branchMargin, line] at hchars

theorem ofLine?_empty : ofLine? "" = none := by decide

end Guard

/-- The lines under each heading, and those above the first one. -/
def sections : List String → List String × List (Guard × List String)
  | [] => ([], [])
  | line :: rest =>
    let later := sections rest
    match Guard.ofLine? line with
    | some guard => ([], (guard, later.1) :: later.2)
    | none => (line :: later.1, later.2)

/-- A line moved back to the left. -/
def outdent (line : String) : String :=
  String.ofList (dropLead branchMargin.toList line.toList)

/-- The text of a branch with these lines, without the newlines at its end. -/
def content (ls : List String) : String := dropLastNewlines (join "\n" (ls.map outdent))

/-- The branches of a dispatcher in order, read from its text below the title. Nothing but empty
lines may stand above the first heading. -/
def branches? (text : String) : Option (List (Guard × String)) :=
  let found := sections ((lines text).drop 1)
  if found.1.all (· == "") then some (found.2.map fun x => (x.1, content x.2)) else none

theorem sections_line (guard : Guard) (rest : List String) :
    sections (guard.line :: rest) = ([], (guard, (sections rest).1) :: (sections rest).2) := by
  rw [sections, Guard.ofLine?_line]

theorem sections_append {ls : List String} (h : ∀ line ∈ ls, Guard.ofLine? line = none)
    (rest : List String) :
    sections (ls ++ rest) = (ls ++ (sections rest).1, (sections rest).2) := by
  induction ls with
  | nil => rfl
  | cons line ls ih =>
    obtain ⟨hline, hlater⟩ := List.forall_mem_cons.mp h
    rw [List.cons_append, sections, hline, ih hlater]
    rfl

/-- Headings with lines of branches below them are taken apart as they were put together. -/
theorem sections_blocks {blocks : List (Guard × List String)}
    (h : ∀ block ∈ blocks, ∀ line ∈ block.2, Guard.ofLine? line = none) :
    sections (blocks.flatMap fun block => block.1.line :: block.2) = ([], blocks) := by
  induction blocks with
  | nil => rfl
  | cons block blocks ih =>
    obtain ⟨hblock, hlater⟩ := List.forall_mem_cons.mp h
    rw [List.flatMap_cons, List.cons_append, sections_line, sections_append hblock, ih hlater,
      List.append_nil]

theorem content_append_blanks (ls : List String) {blanks : List String}
    (h : ∀ line ∈ blanks, line = "") : content (ls ++ blanks) = content ls := by
  induction blanks using List.reverseRecOn with
  | nil => rw [List.append_nil]
  | append_singleton blanks line ih =>
    rw [← ih fun line hline => h line (List.mem_append_left _ hline), ← List.append_assoc,
      h line (by simp)]
    by_cases hsome : ls ++ blanks = []
    · rw [hsome]
      decide
    · rw [content, List.map_append, join_append (by simpa using hsome) (by simp)]
      exact (congrArg dropLastNewlines String.append_empty).trans (dropLastNewlines_newline _)

/-- Empty lines at the end belong to the last branch, where they make no difference. -/
theorem sections_append_blanks (ls : List String) {blanks : List String}
    (h : ∀ line ∈ blanks, line = "") :
    (∃ more, (∀ line ∈ more, line = "") ∧
      (sections (ls ++ blanks)).1 = (sections ls).1 ++ more) ∧
    (sections (ls ++ blanks)).2.map (fun x => (x.1, content x.2)) =
      (sections ls).2.map fun x => (x.1, content x.2) := by
  induction ls with
  | nil =>
    have hblanks : sections (blanks ++ []) = (blanks ++ [], []) :=
      sections_append (fun line hline => by rw [h line hline, Guard.ofLine?_empty]) []
    rw [List.append_nil] at hblanks
    rw [List.nil_append, hblanks]
    exact ⟨⟨blanks, h, rfl⟩, rfl⟩
  | cons line ls ih =>
    obtain ⟨⟨more, hmore, hfirst⟩, hlater⟩ := ih
    rw [List.cons_append, sections, sections]
    cases Guard.ofLine? line with
    | some guard =>
      refine ⟨⟨[], by simp, rfl⟩, ?_⟩
      dsimp only
      rw [List.map_cons, List.map_cons, hlater, hfirst, content_append_blanks _ hmore]
    | none => exact ⟨⟨more, hmore, by dsimp only; rw [hfirst]; rfl⟩, hlater⟩

theorem branches?_dropLastNewlines (text : String) :
    branches? (dropLastNewlines text) = branches? text := by
  obtain ⟨blanks, hblanks, hlines⟩ := lines_dropLastNewlines text
  have hrest : (lines text).drop 1 = (lines (dropLastNewlines text)).drop 1 ++ blanks := by
    rw [hlines, List.drop_append_of_le_length]
    exact List.length_pos_of_ne_nil (lines_ne_nil _)
  obtain ⟨⟨more, hmore, hfirst⟩, hlater⟩ :=
    sections_append_blanks ((lines (dropLastNewlines text)).drop 1) hblanks
  have hall : more.all (· == "") = true := by simpa using hmore
  rw [branches?, branches?, hrest, hfirst, hlater, List.all_append, hall, Bool.and_true]

theorem lines_indent (code : String) :
    lines (indent branchMargin code) = (lines (dropLastNewlines code)).map fun line =>
      if line = "" then line else branchMargin ++ line := by
  rw [indent, lines_join (by simpa using lines_ne_nil _), flatMap_lines]
  intro x hx
  obtain ⟨line, hline, rfl⟩ := List.mem_map.mp hx
  have hnewline := notMem_of_mem_lines hline
  by_cases hempty : line = ""
  · rw [if_pos hempty]
    exact hnewline
  · rw [if_neg hempty, String.toList_append]
    exact List.not_mem_append (by simp [branchMargin]) hnewline

theorem ofLine?_of_mem_indent {code line : String} (h : line ∈ lines (indent branchMargin code)) :
    Guard.ofLine? line = none := by
  rw [lines_indent] at h
  obtain ⟨inner, _, rfl⟩ := List.mem_map.mp h
  by_cases hempty : inner = ""
  · rw [if_pos hempty, hempty, Guard.ofLine?_empty]
  · rw [if_neg hempty, Guard.ofLine?_indented]

/-- Moved back, the lines of a branch are those of its code. -/
theorem map_outdent_indent (code : String) :
    (lines (indent branchMargin code)).map outdent = lines (dropLastNewlines code) := by
  rw [lines_indent, List.map_map]
  refine (List.map_congr_left fun line _ => ?_).trans (List.map_id _)
  rw [Function.comp_apply, id_eq]
  by_cases hempty : line = ""
  · rw [if_pos hempty, hempty]
    decide
  · rw [if_neg hempty, outdent, String.toList_append, dropLead,
      if_pos (List.isPrefixOf_iff_prefix.mpr (List.prefix_append _ _)), List.drop_left,
      String.ofList_toList]

theorem content_indent (code : String) :
    content (lines (indent branchMargin code)) = dropLastNewlines code := by
  rw [content, map_outdent_indent, join_lines, dropLastNewlines_dropLastNewlines]

theorem content_flatMap_indent {codes : List String} (h : codes ≠ []) :
    content (codes.flatMap fun code => lines (indent branchMargin code)) =
      dropLastNewlines (join "\n" (codes.map dropLastNewlines)) := by
  have hlines : codes.flatMap (fun code => (lines (indent branchMargin code)).map outdent) =
      (codes.map dropLastNewlines).flatMap lines := by
    rw [List.flatMap_map]
    exact List.flatMap_congr fun code _ => map_outdent_indent code
  rw [content, List.map_flatMap, hlines, ← lines_join (by simpa using h), join_lines]

/-- A branch with its heading and the lines below it. -/
def branchBlock (x : String × String) : Guard × List String :=
  (.condition x.1, lines (indent branchMargin x.2))

/-- The codes without a condition one below the other, if there are any. -/
def fallbackBlocks (others : List String) : List (Guard × List String) :=
  if others.isEmpty then []
  else [(.otherwise, others.flatMap fun code => lines (indent branchMargin code))]

/-- What the branches of a dispatcher come to: the conditions with their codes, and the codes
without a condition one below the other, without the newlines at their ends. -/
def kept (branches : List (String × String)) (others : List String) : List (Guard × String) :=
  branches.map (fun x => (.condition x.1, dropLastNewlines x.2)) ++
    if others.isEmpty then []
    else [(.otherwise, dropLastNewlines (join "\n" (others.map dropLastNewlines)))]

section Blocks

variable (branches : List (String × String)) (others : List String)

theorem ofLine?_of_mem_blocks :
    ∀ block ∈ branches.map branchBlock ++ fallbackBlocks others,
      ∀ line ∈ block.2, Guard.ofLine? line = none := by
  intro block hblock line hline
  rcases List.mem_append.mp hblock with hblock | hblock
  · obtain ⟨x, _, rfl⟩ := List.mem_map.mp hblock
    dsimp only [branchBlock] at hline
    exact ofLine?_of_mem_indent hline
  · rw [fallbackBlocks] at hblock
    split at hblock
    · cases hblock
    · obtain rfl := List.mem_singleton.mp hblock
      obtain ⟨code, _, hline⟩ := List.mem_flatMap.mp hline
      exact ofLine?_of_mem_indent hline

theorem map_content_blocks :
    (branches.map branchBlock ++ fallbackBlocks others).map (fun x => (x.1, content x.2)) =
      kept branches others := by
  have hbranches : (branches.map branchBlock).map (fun x => (x.1, content x.2)) =
      branches.map fun x => (.condition x.1, dropLastNewlines x.2) := by
    rw [List.map_map]
    refine List.map_congr_left fun x _ => ?_
    rw [Function.comp_apply, branchBlock, content_indent]
  rw [kept, List.map_append, hbranches, fallbackBlocks]
  split
  · rfl
  · rename_i hsome
    rw [List.map_singleton, content_flatMap_indent (by simpa using hsome)]

end Blocks

theorem lines_heading {guard : Guard} (h : '\n' ∉ guard.line.toList) (body rest : String) :
    lines (guard.line ++ "\n" ++ (body ++ "\n" ++ rest)) =
      guard.line :: (lines body ++ lines rest) := by
  rw [lines_append, lines_append, lines_of_notMem h, List.singleton_append]

theorem lines_fallbackText (others : List String) :
    lines (fallbackText others) =
      (fallbackBlocks others).flatMap (fun block => block.1.line :: block.2) ++ [""] := by
  rw [fallbackText, fallbackBlocks]
  by_cases hempty : others = []
  · rw [hempty]
    decide
  · have hsome : ¬ others.isEmpty = true := by simpa using hempty
    have hsplit : ∀ text : String, "  otherwise:\n" ++ text ++ "\n" =
        Guard.otherwise.line ++ "\n" ++ (text ++ "\n" ++ "") := by
      intro text
      rw [String.append_empty, String.append_assoc]
      rfl
    rw [if_neg hsome, if_neg hsome, hsplit, lines_heading (by decide),
      lines_join (by simpa using hempty), List.flatMap_map, List.flatMap_singleton,
      lines_of_notMem (by simp), List.cons_append]

theorem lines_branches {branches : List (String × String)}
    (h : ∀ x ∈ branches, '\n' ∉ x.1.toList) (others : List String) :
    lines (String.join (branches.map fun x => branchText x.1 x.2) ++ fallbackText others) =
      (branches.map branchBlock ++ fallbackBlocks others).flatMap
        (fun block => block.1.line :: block.2) ++ [""] := by
  induction branches with
  | nil => simpa using lines_fallbackText others
  | cons x branches ih =>
    obtain ⟨hx, hlater⟩ := List.forall_mem_cons.mp h
    have hshape : ∀ rest, branchText x.1 x.2 ++ rest =
        (Guard.condition x.1).line ++ "\n" ++ (indent branchMargin x.2 ++ "\n" ++ rest) := by
      intro rest
      have hcolon : ":\n" = ":" ++ "\n" := by decide
      rw [branchText, hcolon, Guard.line]
      simp only [String.append_assoc]
    have hline : '\n' ∉ (Guard.condition x.1).line.toList := by simp [Guard.line, hx]
    rw [List.map_cons, String.join_cons, String.append_assoc, hshape, lines_heading hline,
      ih hlater, List.map_cons, List.cons_append, List.flatMap_cons, List.cons_append,
      List.cons_append, List.append_assoc, branchBlock]

/-- A dispatcher is read back as its branches, whatever their texts are. -/
theorem branches?_dispatcherCode (title : String) {parts : List (Subproblem × Artifact)}
    (h : ∀ x ∈ parts, '\n' ∉ x.1.condition.toList) :
    branches? (dispatcherCode title parts) =
      some (kept ((parts.filter (·.1.condition != "")).map fun x => (x.1.condition, x.2.code))
        ((parts.filter (·.1.condition == "")).map (·.2.code))) := by
  generalize hbranches : (parts.filter (·.1.condition != "")).map
    (fun x => (x.1.condition, x.2.code)) = branches
  generalize hothers : (parts.filter (·.1.condition == "")).map (·.2.code) = others
  have hconditions : ∀ x ∈ branches, '\n' ∉ x.1.toList := by
    rw [← hbranches]
    intro x hx
    obtain ⟨y, hy, rfl⟩ := List.mem_map.mp hx
    exact h y (List.mem_filter.mp hy).1
  have hcode : dispatcherCode title parts = dropLastNewlines (
      "dispatch " ++ Text.quote title ++ ":" ++ "\n" ++
        (String.join (branches.map fun x => branchText x.1 x.2) ++ fallbackText others)) := by
    have hcolon : ":\n" = ":" ++ "\n" := by decide
    rw [dispatcherCode, ← hbranches, ← hothers, List.map_map, hcolon]
    simp only [String.append_assoc]
    rfl
  have htitle : '\n' ∉ ("dispatch " ++ Text.quote title ++ ":").toList := by
    simp [notMem_quote]
  have hsections := sections_blocks (ofLine?_of_mem_blocks branches others)
  have hblank : ∀ line ∈ [""], line = "" := by simp
  obtain ⟨⟨more, hmore, hfirst⟩, hlater⟩ := sections_append_blanks
    ((branches.map branchBlock ++ fallbackBlocks others).flatMap
      fun block => block.1.line :: block.2) hblank
  rw [hcode, branches?_dropLastNewlines, branches?, lines_append, lines_of_notMem htitle,
    List.singleton_append, List.drop_one, List.tail_cons, lines_branches hconditions, hfirst,
    hlater, hsections, List.nil_append, map_content_blocks, if_pos (by simpa using hmore)]

theorem dropLastNewlines_dispatcherCode (title : String) (parts : List (Subproblem × Artifact)) :
    dropLastNewlines (dispatcherCode title parts) = dispatcherCode title parts :=
  dropLastNewlines_dropLastNewlines _

/-- The branches of a dispatcher of these parts, by index. -/
def branchesOf (parts : List Part) : List (Guard × String) :=
  kept ((parts.filter (·.subproblem.condition != "")).map fun p => (p.subproblem.condition, p.code))
    ((parts.filter (·.subproblem.condition == "")).map Part.code)

end Dispatch

namespace Composition

theorem filter_map_of_solved {α : Type} {parts : List Part}
    {solutions : List (Subproblem × Artifact)} (h : solved parts = .ok solutions)
    (q : Subproblem → Bool) (f : Subproblem → String → α) :
    (solutions.filter (q ·.1)).map (fun x => f x.1 x.2.code) =
      (parts.filter (q ·.subproblem)).map fun p => f p.subproblem p.code := by
  have hpairs : solutions.map (fun x => (x.1, x.2.code)) =
      parts.map fun p => (p.subproblem, p.code) := by
    have hcodes := congrArg (List.map fun x => (x.1, (x.2.map (·.code)).getD ""))
      (solvedFrom_eq_ok h)
    rw [List.map_map, List.map_map] at hcodes
    exact hcodes.symm
  have hboth := congrArg (fun xs => (xs.filter (q ·.1)).map fun x => f x.1 x.2) hpairs
  rw [List.filter_map, List.filter_map, List.map_map, List.map_map] at hboth
  exact hboth

end Composition

namespace Composer

open Text Dispatch Synthesis.Composition

variable {parts : List Part} {s : Specification} {a : Artifact}

theorem compose_function_eq_ok (h : Composer.function.compose parts s = .ok a) :
    ∃ solutions, solved parts = .ok solutions ∧ a.code = dispatcherCode s.summary solutions := by
  obtain ⟨solutions, hsolved, hcode⟩ := compose_eq_ok h
  exact ⟨solutions, hsolved, (Except.ok.inj hcode).symm⟩

/-- A composed dispatcher is read back: for each condition, by index, the condition and the code,
and for the parts without a condition their codes one below the other, apart from newlines at the
ends; and a branch that is itself a composed dispatcher as it is. -/
theorem function_reads_back (h : Composer.function.compose parts s = .ok a)
    (hconditions : ∀ p ∈ parts, '\n' ∉ p.subproblem.condition.toList) :
    branches? a.code = some (branchesOf parts) ∧
    ∀ p ∈ parts, p.subproblem.condition ≠ "" →
      ∀ (inner : List Part) (t : Specification) (b : Artifact),
        Composer.function.compose inner t = .ok b → p.solution = some b →
          (.condition p.subproblem.condition, b.code) ∈ branchesOf parts := by
  constructor
  · obtain ⟨solutions, hsolved, hcode⟩ := compose_function_eq_ok h
    have hsolutions : ∀ x ∈ solutions, '\n' ∉ x.1.condition.toList := by
      intro x hx
      have hmem : (x.1, some x.2) ∈ parts.map fun p => (p.subproblem, p.solution) := by
        rw [solvedFrom_eq_ok hsolved]
        exact List.mem_map_of_mem hx
      obtain ⟨p, hp, heq⟩ := List.mem_map.mp hmem
      rw [← (Prod.mk.inj heq).1]
      exact hconditions p hp
    rw [hcode, branches?_dispatcherCode _ hsolutions, branchesOf,
      filter_map_of_solved hsolved (·.condition != "") fun p code => (p.condition, code),
      filter_map_of_solved hsolved (·.condition == "") fun _ code => code]
  · intro p hp hcondition inner t b hinner hsolution
    obtain ⟨_, _, hcode⟩ := compose_function_eq_ok hinner
    have hpcode : p.code = b.code := by rw [Part.code, hsolution]; rfl
    have hwhole : dropLastNewlines p.code = b.code := by
      rw [hpcode, hcode, dropLastNewlines_dispatcherCode]
    refine List.mem_append_left _ (List.mem_map.mpr ⟨(p.subproblem.condition, p.code), ?_, ?_⟩)
    · exact List.mem_map_of_mem (List.mem_filter.mpr ⟨hp, by simpa using hcondition⟩)
    · rw [hwhole]

/-- A dispatcher whose first branch is one itself, and whose other codes have lines that look like
headings; the conditions do so, too. -/
def desk : List Part :=
  [{ index := 0
     subproblem := { condition := "ready" }
     solution := some
      { code := "dispatch \"inner\":\n  when late:\n    skip\n\n  otherwise:\n    go" } },
   { index := 1
     subproblem := {}
     solution := some { code := "\n  when lost:\n\nreturn\n\n" } },
   { index := 2
     subproblem := { condition := "x:\t  otherwise" }
     solution := some { code := "\n" } },
   { index := 3
     subproblem := {}
     solution := some { code := "  otherwise:\n" } }]

theorem function_reads_back_desk :
    ∃ a, Composer.function.compose desk { description := "choose" } = .ok a ∧
      branches? a.code = some
        [(.condition "ready",
          "dispatch \"inner\":\n  when late:\n    skip\n\n  otherwise:\n    go"),
         (.condition "x:\t  otherwise", ""),
         (.otherwise, "\n  when lost:\n\nreturn\n  otherwise:")] := by
  have hcomposed : ((Composer.function.compose desk { description := "choose" }).toOption.map
      (·.code)).isSome = true := by
    decide +kernel
  cases ha : Composer.function.compose desk { description := "choose" } with
  | error fault =>
    rw [ha] at hcomposed
    cases hcomposed
  | ok a =>
    have hread := (function_reads_back ha (by simp [desk])).1
    have hbranches : branchesOf desk =
        [(.condition "ready",
          "dispatch \"inner\":\n  when late:\n    skip\n\n  otherwise:\n    go"),
         (.condition "x:\t  otherwise", ""),
         (.otherwise, "\n  when lost:\n\nreturn\n  otherwise:")] := by
      decide +kernel
    exact ⟨a, rfl, hread.trans (congrArg some hbranches)⟩

end Composer

end Synthesis
