import Synthesis.Proofs.Assembly

/-!
Assembled code can be assembled again. What assembling puts in front of the bodies is read as the
imports of the whole, and what it puts between them as part of one body. So it makes no difference
whether solved parts are assembled at once or in consecutive groups, whose codes are then assembled
in turn; an assembled code by itself stays as it is.
-/
namespace Synthesis

namespace Text

variable {sep : String} {xs ys : List String}

/-- What begins with a text that is not empty is not empty. -/
theorem join_ne_empty (hxs : xs ≠ []) (h : ∀ x ∈ xs, x ≠ "") : join sep xs ≠ "" := by
  cases xs with
  | nil => exact absurd rfl hxs
  | cons x xs =>
    have hx := h x List.mem_cons_self
    cases xs with
    | nil => exact hx
    | cons y xs => simp [join, hx]

/-- Groups of texts are joined like all their members, when groups without members are left out. -/
theorem join_map_join {groups : List (List String)} (h : ∀ g ∈ groups, ∀ x ∈ g, x ≠ "") :
    join sep ((groups.map (join sep)).filter (· != "")) = join sep groups.flatten := by
  induction groups with
  | nil => rfl
  | cons g groups ih =>
    obtain ⟨hg, hgroups⟩ := List.forall_mem_cons.mp h
    have hlater := ih hgroups
    rw [List.map_cons, List.flatten_cons]
    by_cases hempty : g = []
    · rw [hempty, List.filter_cons_of_neg (by simp [join]), List.nil_append, hlater]
    · rw [List.filter_cons_of_pos (by simpa using join_ne_empty hempty hg)]
      by_cases hrest : groups.flatten = []
      · -- Nothing is left of the later groups, since joining what is left gives nothing.
        have hnone : (groups.map (join sep)).filter (· != "") = [] := by
          by_contra hsome
          refine join_ne_empty hsome (fun x hx => ?_) (hlater.trans (by rw [hrest]; rfl))
          simpa using (List.mem_filter.mp hx).2
        rw [hnone, hrest, List.append_nil]
        rfl
      · have hsome : (groups.map (join sep)).filter (· != "") ≠ [] := by
          intro hnone
          rw [hnone] at hlater
          refine join_ne_empty hrest (fun x hx => ?_) hlater.symm
          obtain ⟨g, hg, hx⟩ := List.mem_flatten.mp hx
          exact hgroups g hg x hx
        rw [join_cons hsome, hlater, join_append hempty hrest]

theorem dropOuterNewlines_dropOuterNewlines (s : String) :
    dropOuterNewlines (dropOuterNewlines s) = dropOuterNewlines s := by
  rw [dropOuterNewlines, dropOuterNewlines, String.toList_ofList, strip_strip]

theorem dropOuterNewlines_newline (s : String) :
    dropOuterNewlines ("\n" ++ s) = dropOuterNewlines s := by
  rw [dropOuterNewlines, String.toList_append, strip_append_left (by simp [isNewline])]
  rfl

/-- Texts without outer newlines stay so when empty lines are put between them. -/
theorem dropOuterNewlines_join (h : ∀ x ∈ xs, x ≠ "" ∧ dropOuterNewlines x = x) :
    dropOuterNewlines (join "\n\n" xs) = join "\n\n" xs := by
  have hstrip : ∀ {s : String}, dropOuterNewlines s = s ↔ strip isNewline s.toList = s.toList := by
    intro s
    rw [dropOuterNewlines, ← String.toList_inj, String.toList_ofList]
  induction xs with
  | nil => rfl
  | cons x xs ih =>
    obtain ⟨⟨hx, hdrop⟩, hlater⟩ := List.forall_mem_cons.mp h
    by_cases hrest : xs = []
    · rw [hrest]
      exact hdrop
    · have hsome : join "\n\n" xs ≠ "" := join_ne_empty hrest fun y hy => (hlater y hy).1
      rw [join_cons hrest, hstrip, String.toList_append, String.toList_append, List.append_assoc]
      exact strip_append_append (hstrip.mp hdrop) (hstrip.mp (ih hlater)) (by simpa using hx)
        (by simpa using hsome) _

/-- Repeating something that was met before makes no difference. -/
theorem distinct_append_distinct (xs ys : List String) :
    distinct (xs ++ distinct ys) = distinct (xs ++ ys) := by
  induction ys using List.reverseRecOn with
  | nil => rfl
  | append_singleton ys y ih =>
    rw [distinct_concat ys, ← List.append_assoc xs ys, distinct_concat (xs ++ ys), ← ih]
    by_cases hy : y ∈ ys
    · have hmet : y ∈ distinct (xs ++ distinct ys) :=
        mem_distinct.mpr (List.mem_append_right xs (mem_distinct.mpr hy))
      rw [if_pos (List.contains_iff_mem.mpr (mem_distinct.mpr hy)),
        if_pos (List.contains_iff_mem.mpr hmet)]
    · have hnew : ¬ (distinct ys).contains y = true := fun hmem =>
        hy (mem_distinct.mp (List.contains_iff_mem.mp hmem))
      rw [if_neg hnew, ← List.append_assoc, distinct_concat]

theorem distinct_flatMap_distinct (groups : List (List String)) :
    distinct (groups.flatMap distinct) = distinct groups.flatten := by
  induction groups using List.reverseRecOn with
  | nil => rfl
  | append_singleton groups g ih =>
    have hsplit : ∀ as : List String, distinct (as ++ g) =
        g.foldl (fun seen x => if seen.contains x then seen else seen ++ [x]) (distinct as) :=
      fun _ => List.foldl_append
    rw [List.flatMap_append, List.flatMap_singleton, distinct_append_distinct, hsplit, ih, ← hsplit,
      List.flatten_append, List.flatten_singleton]

end Text

namespace Composition

open Text

variable {code : String} {codes : List String}

theorem isImport_trim (line : String) : isImport (trim line) = isImport line := by
  rw [isImport, isImport, trim_trim]

theorem imports_eq (code : String) :
    imports code = ((filledLines code).filter isImport).map trim := by
  rw [imports, filledLines, List.filter_filter]
  refine congrArg (List.map trim) (List.filter_congr fun line _ => ?_)
  by_cases hline : line = ""
  · rw [hline]
    decide
  · simp [hline]

/-- An import is one of the whole, and as it stands. -/
theorem isImport_of_mem_imports {head : String} (h : head ∈ imports code) :
    isImport head = true ∧ trim head = head := by
  obtain ⟨line, hline, rfl⟩ := List.mem_map.mp h
  rw [isImport_trim, trim_trim]
  exact ⟨(List.mem_filter.mp hline).2, rfl⟩

theorem imports_assembledCode (codes : List String) :
    imports (assembledCode codes) = distinct (codes.flatMap imports) := by
  have hheads : ∀ head ∈ distinct (codes.flatMap imports),
      isImport head = true ∧ trim head = head := by
    intro head hhead
    obtain ⟨code, _, hhead⟩ := List.mem_flatMap.mp (mem_distinct.mp hhead)
    exact isImport_of_mem_imports hhead
  have hbodies : (codes.flatMap bodyLines).filter isImport = [] := by
    rw [List.filter_eq_nil_iff]
    intro line hline
    obtain ⟨code, _, hline⟩ := List.mem_flatMap.mp hline
    simpa using (List.mem_filter.mp hline).2
  rw [imports_eq, filledLines_assembledCode, ← distinct_eq_eraseDups, List.filter_append, hbodies,
    List.append_nil, List.filter_eq_self.mpr fun head hhead => (hheads head hhead).1]
  exact (List.map_congr_left fun head hhead => (hheads head hhead).2).trans (List.map_id _)

/-- The bodies of texts, as far as they have one. -/
def bodies (codes : List String) : List String := (codes.map body).filter (· != "")

theorem mem_bodies {text : String} (h : text ∈ bodies codes) :
    text ≠ "" ∧ dropOuterNewlines text = text ∧ AllLines (isImport · = false) text := by
  obtain ⟨hmem, hsome⟩ := List.mem_filter.mp h
  obtain ⟨code, _, rfl⟩ := List.mem_map.mp hmem
  refine ⟨by simpa using hsome, dropOuterNewlines_dropOuterNewlines _, ?_⟩
  refine AllLines.dropOuterNewlines (AllLines.join (by decide) fun line hline => ?_).1
  obtain ⟨hline, hbody⟩ := List.mem_filter.mp hline
  exact (allLines_of_notMem (notMem_of_mem_lines hline)).mpr (by simpa using hbody)

theorem body_of_allLines (h : AllLines (isImport · = false) code) :
    body code = dropOuterNewlines code := by
  rw [body, List.filter_eq_self.mpr fun line hline => by simp [h line hline], join_lines]

/-- Imports with an empty line below them are not seen in the body. -/
theorem body_under_imports {heads : List String} (hsome : heads ≠ [])
    (himports : ∀ head ∈ heads, isImport head = true ∧ '\n' ∉ head.toList) (text : String) :
    body (Text.join "\n" heads ++ "\n\n" ++ text) = body text := by
  have hsplit : Text.join "\n" heads ++ "\n\n" = Text.join "\n" heads ++ "\n" ++ "" ++ "\n" := by
    rw [String.append_empty, String.append_assoc]
    rfl
  have hnone : heads.filter (!isImport ·) = [] := by
    rw [List.filter_eq_nil_iff]
    intro head hhead
    simp [(himports head hhead).1]
  have hblank : (lines "").filter (!isImport ·) = [""] := by decide
  have hlines : lines (Text.join "\n" heads) = heads := by
    rw [lines_join hsome, flatMap_lines fun head hhead => (himports head hhead).2]
  rw [body, hsplit, lines_append, lines_append, hlines, List.filter_append, List.filter_append,
    hnone, hblank, List.nil_append, List.singleton_append, body]
  by_cases hrest : (lines text).filter (!isImport ·) = []
  · rw [hrest]
    rfl
  · rw [join_cons hrest, String.empty_append, dropOuterNewlines_newline]

theorem body_assembledCode (codes : List String) :
    body (assembledCode codes) = Text.join "\n\n" (bodies codes) := by
  have hbodies : body (Text.join "\n\n" (bodies codes)) = Text.join "\n\n" (bodies codes) := by
    rw [body_of_allLines, dropOuterNewlines_join]
    · exact fun text htext => ⟨(mem_bodies htext).1, (mem_bodies htext).2.1⟩
    · exact (AllLines.join (by decide) fun text htext => (mem_bodies htext).2.2).2
  unfold assembledCode
  dsimp only
  split
  · exact hbodies
  · rename_i hsome
    refine (body_under_imports (by simpa using hsome) ?_ _).trans hbodies
    intro head hhead
    obtain ⟨code, _, hhead⟩ := List.mem_flatMap.mp (mem_distinct.mp hhead)
    exact ⟨(isImport_of_mem_imports hhead).1, (notMem_of_mem_imports hhead).1⟩

theorem bodies_flatten (groups : List (List String)) :
    bodies groups.flatten = (groups.map bodies).flatten := by
  rw [bodies, List.map_flatten, List.filter_flatten, List.map_map]
  rfl

theorem bodies_map_assembledCode (groups : List (List String)) :
    bodies (groups.map assembledCode) =
      ((groups.map bodies).map (Text.join "\n\n")).filter (· != "") := by
  rw [bodies, List.map_map, List.map_map]
  refine congrArg (List.filter (· != "")) (List.map_congr_left fun codes _ => ?_)
  exact body_assembledCode codes

theorem imports_map_assembledCode (groups : List (List String)) :
    distinct ((groups.map assembledCode).flatMap imports) =
      distinct (groups.flatten.flatMap imports) := by
  have hgroups : (groups.map assembledCode).flatMap imports =
      (groups.map (·.flatMap imports)).flatMap distinct := by
    rw [List.flatMap_map, List.flatMap_map]
    exact List.flatMap_congr fun codes _ => imports_assembledCode codes
  have hflat : groups.flatten.flatMap imports = (groups.map (·.flatMap imports)).flatten := by
    rw [← List.flatMap_id, List.flatMap_assoc]
    rfl
  rw [hgroups, distinct_flatMap_distinct, hflat]

/-- Assembling groups of texts and then the assembled texts is assembling all texts. -/
theorem assembledCode_map_assembledCode (groups : List (List String)) :
    assembledCode (groups.map assembledCode) = assembledCode groups.flatten := by
  have hbodies : Text.join "\n\n" (bodies (groups.map assembledCode)) =
      Text.join "\n\n" (bodies groups.flatten) := by
    rw [bodies_map_assembledCode, bodies_flatten, join_map_join]
    intro texts htexts text htext
    obtain ⟨codes, _, rfl⟩ := List.mem_map.mp htexts
    exact (mem_bodies htext).1
  rw [assembledCode_eq, assembledCode_eq, headText, headText, imports_map_assembledCode]
  exact congrArg _ hbodies

/-- The parts of solved subproblems, each in its place. -/
def partsOf (solutions : List (Subproblem × Artifact)) : List Part :=
  solutions.zipIdx.map fun x => { index := x.2, subproblem := x.1.1, solution := some x.1.2 }

end Composition

namespace Decomposition

/-- Subproblems that can be solved as they stand: they do not depend on each other, their priorities
never fall, and their slots are different. -/
structure Loose (subs : List Subproblem) : Prop where
  free : ∀ p ∈ subs, p.dependencies = []
  rising : subs.Pairwise fun p q => p.priority ≤ q.priority
  apart : (slotNames subs).Nodup

variable {subs : List Subproblem}

theorem Loose.pointBack (h : Loose subs) : PointBack subs := by
  intro i p hp d hd
  rw [h.free p (List.mem_of_getElem? hp)] at hd
  exact absurd hd List.not_mem_nil

theorem Loose.fault?_eq_none (h : Loose subs) : fault? subs = none := by
  refine Decomposition.fault?_eq_none h.pointBack fun p hp => ?_
  rw [h.free p hp]
  exact List.nodup_nil

end Decomposition

namespace Composition

open Decomposition

theorem solved_partsOf {solutions : List (Subproblem × Artifact)}
    (hslots : (slotNames (solutions.map (·.1))).Nodup) :
    solved (partsOf solutions) = .ok solutions := by
  refine solved_eq_of_nodup ?_ ?_ ?_
  · intro j p hp
    rw [partsOf, List.getElem?_map, List.getElem?_zipIdx, Option.map_map, Nat.zero_add] at hp
    obtain ⟨x, _, rfl⟩ := Option.map_eq_some_iff.mp hp
    rfl
  · rw [partsOf, List.map_map]
    exact map_zipIdx (fun _ _ => rfl) solutions
  · rw [slotNames, List.zipIdx_map, List.map_map] at hslots
    rw [partsOf, List.map_map]
    exact hslots

end Composition

namespace Composer

open Text Decomposition Synthesis.Composition

/-- What solved subproblems are assembled to, as they stand. -/
def assembled (solutions : List (Subproblem × Artifact)) : Artifact :=
  ⟨assembledCode (solutions.map (·.2.code)), confidence (solutions.map (·.2)), "compose/code"⟩

theorem compose_partsOf {solutions : List (Subproblem × Artifact)}
    (h : Loose (solutions.map (·.1))) (s : Specification) :
    Composer.code.compose (partsOf solutions) s = .ok (assembled solutions) := by
  have horder : executionOrder (solutions.map (·.1)) = List.range solutions.length := by
    rw [executionOrder_eq_range h.pointBack h.rising, List.length_map]
  exact compose_of_codeOf (solved_partsOf h.apart)
    (codeOf_code_in_order h.fault?_eq_none horder s)

/-- Members of a loose whole that have slots of their own are loose. -/
theorem loose_of_mem {groups : List (List (Subproblem × Artifact))}
    (hwhole : Loose (groups.flatten.map (·.1))) {g : List (Subproblem × Artifact)} (hg : g ∈ groups)
    (hslots : (slotNames (g.map (·.1))).Nodup) : Loose (g.map (·.1)) := by
  have hsub : (g.map (·.1)).Sublist (groups.flatten.map (·.1)) :=
    (List.sublist_flatten_of_mem hg).map _
  exact ⟨fun p hp => hwhole.free p (hsub.subset hp), hwhole.rising.sublist hsub, hslots⟩

/-- A single part is loose when it depends on nothing. -/
theorem loose_singleton {top : Subproblem} (h : top.dependencies = []) : Loose [top] :=
  ⟨by simpa using h, List.pairwise_singleton _ _, List.nodup_singleton _⟩

/-- Loose parts are assembled in consecutive groups, and then the groups, to the same code as all at
once; in particular a part with assembled code keeps it. -/
theorem code_regroups {groups : List (List (Subproblem × Artifact))} {tops : List Subproblem}
    (hwhole : Loose (groups.flatten.map (·.1)))
    (hgroups : ∀ g ∈ groups, (slotNames (g.map (·.1))).Nodup)
    (htops : Loose tops) (hlength : tops.length = groups.length) :
    (∃ (whole nested : Artifact) (inner : List Artifact),
      (∀ s, Composer.code.compose (partsOf groups.flatten) s = .ok whole) ∧
      List.Forall₂ (fun g a => ∀ s, Composer.code.compose (partsOf g) s = .ok a) groups inner ∧
      (∀ s, Composer.code.compose (partsOf (tops.zip inner)) s = .ok nested) ∧
      nested.code = whole.code) ∧
    ∀ (parts : List Part) (s : Specification) (a : Artifact) (top : Subproblem),
      Composer.code.compose parts s = .ok a → top.dependencies = [] →
        ∃ b, (∀ t, Composer.code.compose (partsOf [(top, a)]) t = .ok b) ∧ b.code = a.code := by
  constructor
  · have hzip : (tops.zip (groups.map assembled)).map (·.1) = tops :=
      List.map_fst_zip (by simp [hlength])
    have hinner : (tops.zip (groups.map assembled)).map (·.2.code) =
        (groups.map (·.map (·.2.code))).map assembledCode := by
      calc (tops.zip (groups.map assembled)).map (·.2.code)
        _ = ((tops.zip (groups.map assembled)).map (·.2)).map Artifact.code := List.map_map.symm
        _ = (groups.map assembled).map Artifact.code := by
          rw [List.map_snd_zip (by simp [hlength])]
        _ = (groups.map (·.map (·.2.code))).map assembledCode := by
          rw [List.map_map, List.map_map]
          rfl
    refine ⟨assembled groups.flatten, assembled (tops.zip (groups.map assembled)),
      groups.map assembled, compose_partsOf hwhole, ?_, ?_, ?_⟩
    · rw [List.forall₂_map_right_iff, List.forall₂_same]
      exact fun g hg => compose_partsOf (loose_of_mem hwhole hg (hgroups g hg))
    · rw [← hzip] at htops
      exact compose_partsOf htops
    · rw [assembled, assembled, hinner, assembledCode_map_assembledCode, List.map_flatten]
  · intro parts s a top ha htop
    obtain ⟨_, _, hcode⟩ := compose_code_eq_ok ha
    refine ⟨assembled [(top, a)], compose_partsOf (loose_singleton htop), ?_⟩
    have hagain := assembledCode_map_assembledCode [(scheduled parts).map Part.code]
    rw [List.map_singleton, ← hcode, List.flatten_singleton, ← hcode] at hagain
    exact hagain

/-- Two groups with an empty one between them: imports that come again in another group, a part of
imports only, and lines with outer newlines. -/
def trays : List (List (Subproblem × Artifact)) :=
  [[({ priority := 1 }, { code := "import a\n\nx = 1\n" }),
    ({ priority := 1, slot := "more" }, { code := "\n  from b import c\n\timport a" })],
   [],
   [({ priority := 4, slot := "part-1" },
      { code := "from b import c\n\n\ny = c(x)\n\n  z = y\n" })]]

theorem code_regroups_trays :
    Loose (trays.flatten.map (·.1)) ∧
    ∃ whole nested inner,
      (∀ s, Composer.code.compose (partsOf trays.flatten) s = .ok whole) ∧
      List.Forall₂ (fun g a => ∀ s, Composer.code.compose (partsOf g) s = .ok a) trays inner ∧
      (∀ s, Composer.code.compose (partsOf ([{}, {}, { priority := 7 }].zip inner)) s =
        .ok nested) ∧
      nested.code = whole.code ∧
      whole.code = "import a\nfrom b import c\n\nx = 1\n\ny = c(x)\n\n  z = y" ∧
      ∃ again, (∀ s, Composer.code.compose (partsOf [({ slot := "only" }, whole)]) s = .ok again) ∧
        again.code = whole.code := by
  have hwhole : Loose (trays.flatten.map (·.1)) := ⟨by decide, by decide, by decide +kernel⟩
  have htops : Loose [{}, {}, { priority := 7 }] := ⟨by decide, by decide, by decide +kernel⟩
  obtain ⟨⟨whole, nested, inner, hflat, hinner, hnested, hsame⟩, hkeeps⟩ :=
    code_regroups hwhole (by decide +kernel) htops rfl
  have hcode : (Composer.code.compose (partsOf trays.flatten) {}).toOption.map (·.code) =
      some "import a\nfrom b import c\n\nx = 1\n\ny = c(x)\n\n  z = y" := by
    decide +kernel
  rw [hflat {}] at hcode
  exact ⟨hwhole, whole, nested, inner, hflat, hinner, hnested, hsame, Option.some.inj hcode,
    hkeeps _ {} whole { slot := "only" } (hflat {}) rfl⟩

end Composer

end Synthesis
