import Synthesis.Proofs.Emission

/-!
Assembled code has all lines of its parts. The empty lines aside, first come the imports, trimmed
and each once, where it first stands, and then the other lines as they were, part after part in the
order of execution. No part is left out of that order and none comes twice, and a part comes behind
all parts it depends on.
-/
namespace Synthesis

namespace Text

/-- The lines of a text that are not empty. -/
def filledLines (s : String) : List String := (lines s).filter (· != "")

theorem filledLines_append (s t : String) :
    filledLines (s ++ "\n" ++ t) = filledLines s ++ filledLines t := by
  rw [filledLines, lines_append, List.filter_append]
  rfl

theorem filledLines_of_notMem {s : String} (h : '\n' ∉ s.toList) :
    filledLines s = [s].filter (· != "") := by
  rw [filledLines, lines_of_notMem h]

theorem filledLines_empty : filledLines "" = [] := filledLines_of_notMem (by simp)

theorem filledLines_append_two (s t : String) :
    filledLines (s ++ "\n\n" ++ t) = filledLines s ++ filledLines t := by
  have hsplit : s ++ "\n\n" = s ++ "\n" ++ "" ++ "\n" := by
    rw [String.append_empty, String.append_assoc]
    rfl
  rw [hsplit, filledLines_append, filledLines_append, filledLines_empty, List.append_nil]

/-- One newline or two between texts make no difference. -/
theorem filledLines_join (xs : List String) :
    filledLines (join "\n" xs) = xs.flatMap filledLines ∧
      filledLines (join "\n\n" xs) = xs.flatMap filledLines := by
  induction xs with
  | nil => exact ⟨filledLines_empty, filledLines_empty⟩
  | cons x rest ih =>
    cases rest with
    | nil => simp [join]
    | cons y rest =>
      rw [List.flatMap_cons, ← ih.1]
      refine ⟨filledLines_append x _, ?_⟩
      rw [ih.1, ← ih.2]
      exact filledLines_append_two x _

theorem filledLines_newline_left {left : List Char} (h : ∀ c ∈ left, isNewline c = true)
    (cs : List Char) :
    filledLines (String.ofList (left ++ cs)) = filledLines (String.ofList cs) := by
  induction left with
  | nil => rfl
  | cons c left ih =>
    obtain ⟨hc, hleft⟩ := List.forall_mem_cons.mp h
    have hnewline : c = '\n' := of_decide_eq_true hc
    have hsplit : String.ofList (c :: left ++ cs) = "" ++ "\n" ++ String.ofList (left ++ cs) := by
      rw [hnewline, List.cons_append, ← List.singleton_append, String.ofList_append]
      rfl
    rw [hsplit, filledLines_append, filledLines_empty, List.nil_append, ih hleft]

theorem filledLines_newline_right {right : List Char} (h : ∀ c ∈ right, isNewline c = true)
    (cs : List Char) :
    filledLines (String.ofList (cs ++ right)) = filledLines (String.ofList cs) := by
  induction right generalizing cs with
  | nil => rw [List.append_nil]
  | cons c right ih =>
    obtain ⟨hc, hright⟩ := List.forall_mem_cons.mp h
    have hnewline : c = '\n' := of_decide_eq_true hc
    have hsplit : String.ofList (cs ++ [c]) = String.ofList cs ++ "\n" ++ "" := by
      rw [hnewline, String.ofList_append, String.append_empty]
    rw [List.append_cons, ih hright, hsplit, filledLines_append, filledLines_empty,
      List.append_nil]

theorem filledLines_dropOuterNewlines (s : String) :
    filledLines (dropOuterNewlines s) = filledLines s := by
  obtain ⟨left, right, hs, hleft, hright⟩ := exists_strip isNewline s.toList
  have hwhole : s = String.ofList (left ++ strip isNewline s.toList ++ right) := by
    rw [← hs, String.ofList_toList]
  conv_rhs => rw [hwhole, filledLines_newline_right hright, filledLines_newline_left hleft]
  rfl

/-- The distinct members are what is left when later occurrences are erased. -/
theorem distinct_eq_eraseDups (xs : List String) : distinct xs = xs.eraseDups := by
  induction xs using List.reverseRecOn with
  | nil => rfl
  | append_singleton xs y ih =>
    rw [distinct_concat, List.eraseDups_append, ih]
    by_cases hy : y ∈ xs
    · have hnone : [y].removeAll xs = [] := by simp [List.removeAll, hy]
      rw [if_pos (by simpa using hy), hnone, List.eraseDups_nil, List.append_nil]
    · have hone : [y].removeAll xs = [y] := by simp [List.removeAll, hy]
      rw [if_neg (by simpa using hy), hone, List.eraseDups_cons, List.filter_nil,
        List.eraseDups_nil]

/-- Empty texts have no lines to add. -/
theorem flatMap_filledLines_filter (xs : List String) :
    (xs.filter (· != "")).flatMap filledLines = xs.flatMap filledLines := by
  induction xs with
  | nil => rfl
  | cons x xs ih =>
    by_cases hx : x = ""
    · rw [List.filter_cons_of_neg (by simp [hx]), ih, List.flatMap_cons, hx, filledLines_empty,
        List.nil_append]
    · rw [List.filter_cons_of_pos (by simp [hx]), List.flatMap_cons, List.flatMap_cons, ih]

end Text

namespace Composition

open Text

/-- The lines of a text that are neither empty nor imports. -/
def bodyLines (code : String) : List String := (filledLines code).filter (!isImport ·)

theorem trim_ne_empty_of_isImport {line : String} (h : isImport line = true) : trim line ≠ "" := by
  intro hempty
  rw [isImport, hempty] at h
  exact absurd h (by decide)

theorem flatMap_filledLines {ls : List String} (h : ∀ line ∈ ls, '\n' ∉ line.toList) :
    ls.flatMap filledLines = ls.filter (· != "") := by
  induction ls with
  | nil => rfl
  | cons line ls ih =>
    obtain ⟨hline, hls⟩ := List.forall_mem_cons.mp h
    rw [List.flatMap_cons, filledLines_of_notMem hline, ih hls, ← List.filter_append]
    rfl

theorem filledLines_body (code : String) : filledLines (body code) = bodyLines code := by
  have hlines : ∀ line ∈ (lines code).filter (!isImport ·), '\n' ∉ line.toList :=
    fun line hline => notMem_of_mem_lines (List.mem_filter.mp hline).1
  rw [body, filledLines_dropOuterNewlines, (filledLines_join _).1, flatMap_filledLines hlines,
    bodyLines, filledLines, List.filter_filter, List.filter_filter]
  exact List.filter_congr fun line _ => Bool.and_comm _ _

theorem notMem_of_mem_imports {code head : String} (h : head ∈ imports code) :
    '\n' ∉ head.toList ∧ head ≠ "" := by
  obtain ⟨line, hline, rfl⟩ := List.mem_map.mp h
  obtain ⟨hline, himport⟩ := List.mem_filter.mp hline
  exact ⟨mt mem_of_mem_trim (notMem_of_mem_lines hline), trim_ne_empty_of_isImport himport⟩

/-- The imports of all texts, each where it first stands, and then their bodies. -/
theorem filledLines_assembledCode (codes : List String) :
    filledLines (assembledCode codes) =
      (codes.flatMap imports).eraseDups ++ codes.flatMap bodyLines := by
  have hheads : (distinct (codes.flatMap imports)).flatMap filledLines =
      (codes.flatMap imports).eraseDups := by
    have hplain : ∀ head ∈ distinct (codes.flatMap imports), '\n' ∉ head.toList ∧ head ≠ "" := by
      intro head hhead
      obtain ⟨code, _, hhead⟩ := List.mem_flatMap.mp (mem_distinct.mp hhead)
      exact notMem_of_mem_imports hhead
    rw [flatMap_filledLines fun head hhead => (hplain head hhead).1,
      List.filter_eq_self.mpr fun head hhead => by simpa using (hplain head hhead).2,
      distinct_eq_eraseDups]
  have hbodies : filledLines (Text.join "\n\n" ((codes.map body).filter (· != ""))) =
      codes.flatMap bodyLines := by
    rw [(filledLines_join _).2, flatMap_filledLines_filter, List.flatMap_map]
    simp only [filledLines_body]
  unfold assembledCode
  dsimp only
  split
  · rename_i hnone
    rw [List.isEmpty_iff] at hnone
    rw [hbodies, ← hheads, hnone]
    rfl
  · rw [filledLines_append_two, (filledLines_join _).1, hheads, hbodies]

end Composition

/-- The code of a solved part. -/
def Part.code (p : Part) : String := (p.solution.map (·.code)).getD ""

namespace Decomposition

variable {subs : List Subproblem}

/-- A subproblem is executed behind the ones it depends on. -/
theorem executionOrder_split (h : fault? subs = none) {i : Nat} {p : Subproblem}
    (hp : subs[i]? = some p) {d : Int} (hd : d ∈ p.dependencies) :
    ∃ (j : Nat) (front between back : List Nat), d = j ∧
      executionOrder subs = front ++ j :: (between ++ i :: back) := by
  have hmem : i ∈ executionOrder subs :=
    mem_executionOrder (pointBack_of_fault? h) (List.getElem?_eq_some_iff.mp hp).1
  obtain ⟨before, back, horder⟩ := List.append_of_mem hmem
  obtain ⟨q, hq, hready⟩ := (executionOrder_isGreedy subs before i back horder).ready
  obtain rfl : p = q := Option.some.inj (hp.symm.trans hq)
  obtain ⟨j, hj, hdj⟩ := hready d hd
  obtain ⟨front, between, rfl⟩ := List.append_of_mem hj
  exact ⟨j, front, between, back, hdj, by rw [horder]; simp⟩

end Decomposition

namespace Composition

open Text Decomposition

variable {parts : List Part}

/-- The parts in the order of their execution. -/
def scheduled (parts : List Part) : List Part :=
  (executionOrder (parts.map (·.subproblem))).filterMap (parts[·]?)

theorem scheduled_perm (h : fault? (parts.map (·.subproblem)) = none) :
    (scheduled parts).Perm parts := by
  have hperm := (executionOrder_perm h).filterMap (parts[·]?)
  rwa [List.length_map, filterMap_range_getElem?] at hperm

/-- A part stands behind the parts it depends on. -/
theorem scheduled_split (h : fault? (parts.map (·.subproblem)) = none) {i : Nat} {p : Part}
    (hp : parts[i]? = some p) {d : Int} (hd : d ∈ p.subproblem.dependencies) :
    ∃ (j : Nat) (q : Part) (front between back : List Part), d = j ∧ parts[j]? = some q ∧
      scheduled parts = front ++ q :: (between ++ p :: back) := by
  have hsub : (parts.map (·.subproblem))[i]? = some p.subproblem := by
    rw [List.getElem?_map, hp]
    rfl
  obtain ⟨j, front, between, back, hdj, horder⟩ := executionOrder_split h hsub hd
  have hj : j < parts.length := by
    have hlt := (executionOrder_isGreedy (parts.map (·.subproblem))).lt_length j (by simp [horder])
    rwa [List.length_map] at hlt
  have hq : parts[j]? = some parts[j] := List.getElem?_eq_getElem hj
  refine ⟨j, parts[j], front.filterMap (parts[·]?), between.filterMap (parts[·]?),
    back.filterMap (parts[·]?), hdj, hq, ?_⟩
  rw [scheduled, horder, List.filterMap_append, List.filterMap_cons_some hq,
    List.filterMap_append, List.filterMap_cons_some hp]

theorem map_code_of_solved {solutions : List (Subproblem × Artifact)}
    (h : solved parts = .ok solutions) :
    parts.map Part.code = solutions.map (·.2.code) := by
  have hcodes := congrArg (List.map fun x => (x.2.map (·.code)).getD "") (solvedFrom_eq_ok h)
  rw [List.map_map, List.map_map] at hcodes
  exact hcodes

end Composition

namespace Composer

open Text Decomposition Synthesis.Composition

variable {parts : List Part} {s : Specification} {a : Artifact}

/-- Parts that the code composer accepts are solved and have no fault in their dependencies, and
their codes are assembled in the order of their execution. -/
theorem compose_code_eq_ok (h : Composer.code.compose parts s = .ok a) :
    (∀ p ∈ parts, ∃ b, p.solution = some b) ∧ fault? (parts.map (·.subproblem)) = none ∧
      a.code = assembledCode ((scheduled parts).map Part.code) := by
  obtain ⟨solutions, hsolved, hcode⟩ := compose_eq_ok h
  have hmap := solvedFrom_eq_ok hsolved
  have hsubs : solutions.map (·.1) = parts.map (·.subproblem) := by
    have hfirst := congrArg (List.map Prod.fst) hmap
    simpa [Function.comp_def] using hfirst.symm
  have hall : ∀ p ∈ parts, ∃ b, p.solution = some b := by
    intro p hp
    have hmem : (p.subproblem, p.solution) ∈ solutions.map fun x => (x.1, some x.2) := by
      rw [← hmap]
      exact List.mem_map_of_mem hp
    obtain ⟨x, _, hx⟩ := List.mem_map.mp hmem
    exact ⟨x.2, (Prod.mk.inj hx).2.symm⟩
  unfold codeOf at hcode
  dsimp only at hcode
  rw [hsubs] at hcode
  split at hcode
  · cases hcode
  · rename_i hvalid
    refine ⟨hall, hvalid, ?_⟩
    rw [← Except.ok.inj hcode, scheduled, List.map_filterMap]
    congr 1
    refine List.filterMap_congr fun i _ => ?_
    rw [← List.getElem?_map, ← List.getElem?_map, map_code_of_solved hsolved]

/-- Composed code has all lines of its parts, the empty ones aside: first the imports of all parts,
trimmed and each where it first stands, then the other lines part after part in the order of
execution, which has every part once and a part behind those it depends on. -/
theorem code_keeps_lines (h : Composer.code.compose parts s = .ok a) :
    (∀ p ∈ parts, ∃ b, p.solution = some b) ∧
    (scheduled parts).Perm parts ∧
    filledLines a.code =
      ((scheduled parts).flatMap fun p => imports p.code).eraseDups ++
        (scheduled parts).flatMap (fun p => bodyLines p.code) ∧
    ∀ (i : Nat) (p : Part), parts[i]? = some p → ∀ d ∈ p.subproblem.dependencies,
      ∃ (j : Nat) (q : Part) (front between back : List String), d = j ∧ parts[j]? = some q ∧
        filledLines a.code =
          front ++ (bodyLines q.code ++ (between ++ (bodyLines p.code ++ back))) := by
  obtain ⟨hall, hvalid, hcode⟩ := compose_code_eq_ok h
  have hlines : filledLines a.code =
      ((scheduled parts).flatMap fun p => imports p.code).eraseDups ++
        (scheduled parts).flatMap fun p => bodyLines p.code := by
    rw [hcode, filledLines_assembledCode, List.flatMap_map, List.flatMap_map]
  refine ⟨hall, scheduled_perm hvalid, hlines, ?_⟩
  intro i p hp d hd
  obtain ⟨j, q, front, between, back, hdj, hq, horder⟩ := scheduled_split hvalid hp hd
  have hbodies : ((scheduled parts).flatMap fun p => bodyLines p.code) =
      front.flatMap (fun p => bodyLines p.code) ++ (bodyLines q.code ++
        (between.flatMap (fun p => bodyLines p.code) ++ (bodyLines p.code ++
          back.flatMap fun p => bodyLines p.code))) := by
    rw [horder, List.flatMap_append, List.flatMap_cons, List.flatMap_append, List.flatMap_cons]
  rw [hbodies, ← List.append_assoc] at hlines
  exact ⟨j, q, _, _, _, hdj, hq, hlines⟩

/-- The first part depends on nothing and comes last, since it has time; the third uses the second,
and repeats its import. -/
def shelf : List Part :=
  [{ index := 0
     subproblem := { priority := 5 }
     solution := some { code := "\n  import b\nlast()\n" } },
   { index := 1
     subproblem := { priority := 1 }
     solution := some { code := "import a\n\nbase()\n    deeper()" } },
   { index := 2
     subproblem := { priority := 0, dependencies := [1] }
     solution := some { code := "from a import base\nimport a \n\n\nuse()\n\n" } }]

theorem code_keeps_lines_shelf :
    ∃ a, Composer.code.compose shelf {} = .ok a ∧
      filledLines a.code = ["import a", "from a import base", "import b", "base()",
        "    deeper()", "use()", "last()"] ∧
      ∃ front between back, filledLines a.code =
        front ++ (["base()", "    deeper()"] ++ (between ++ (["use()"] ++ back))) := by
  have hcomposed : ((Composer.code.compose shelf {}).toOption.map (·.code)).isSome = true := by
    decide +kernel
  cases ha : Composer.code.compose shelf {} with
  | error fault =>
    rw [ha] at hcomposed
    cases hcomposed
  | ok a =>
    obtain ⟨_, _, hlines, hdepends⟩ := code_keeps_lines ha
    have horder : ((scheduled shelf).flatMap fun p => imports p.code).eraseDups ++
        (scheduled shelf).flatMap (fun p => bodyLines p.code) =
        ["import a", "from a import base", "import b", "base()", "    deeper()", "use()",
          "last()"] := by
      decide +kernel
    obtain ⟨j, q, front, between, back, hj, hq, hsplit⟩ :=
      hdepends 2 (shelf.get ⟨2, by decide⟩) rfl 1 (by decide)
    obtain rfl : j = 1 := by omega
    obtain rfl : shelf.get ⟨1, by decide⟩ = q := Option.some.inj hq
    have hbase : bodyLines (shelf.get ⟨1, by decide⟩).code = ["base()", "    deeper()"] := by
      decide +kernel
    have huse : bodyLines (shelf.get ⟨2, by decide⟩).code = ["use()"] := by
      decide +kernel
    rw [hbase, huse] at hsplit
    exact ⟨a, rfl, hlines.trans horder, front, between, back, hsplit⟩

end Composer

end Synthesis
