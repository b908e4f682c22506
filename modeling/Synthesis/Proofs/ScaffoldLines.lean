import Synthesis.Leaf.Scaffold
import Synthesis.Proofs.Chains
import Synthesis.Proofs.Lines

/-!
The lines of a scaffold. Its last two lines define a function with a proper name, whatever the
specification and the hints say. Each text that it carries is written behind a comment mark, but
only its first line gets the mark. The description in the summary is on one line; the signature, the
constraints and the names of abstractions are written as they are. So all lines before the
definition are comments just when every later line of these texts is one already.
-/
namespace Synthesis

namespace Text

variable {keep : Char → Bool} {cs w : List Char} {s lead line : String}

/-- Runs are not empty, and they are made of the characters that are kept. -/
theorem keep_of_mem_runs (hw : w ∈ runs keep cs) : w ≠ [] ∧ ∀ c ∈ w, keep c = true := by
  induction cs generalizing w with
  | nil => cases hw
  | cons d cs ih =>
    unfold runs at hw
    split at hw
    next hd =>
      split at hw
      next v vs _ hruns =>
        rcases List.mem_cons.mp hw with rfl | hw
        · have hv := (ih (hruns ▸ List.mem_cons_self)).2
          exact ⟨List.cons_ne_nil _ _, List.forall_mem_cons.mpr ⟨hd, hv⟩⟩
        · exact ih (hruns ▸ List.mem_cons_of_mem v hw)
      next =>
        rcases List.mem_cons.mp hw with rfl | hw
        · exact ⟨List.cons_ne_nil _ _, by simpa using hd⟩
        · exact ih hw
    next => exact ih hw

/-- Joined texts have the characters of the texts and of what joins them. -/
theorem mem_of_mem_join {sep : String} {texts : List String} {c : Char}
    (hc : c ∈ (join sep texts).toList) : c ∈ sep.toList ∨ ∃ text ∈ texts, c ∈ text.toList := by
  induction texts with
  | nil => cases hc
  | cons text rest ih =>
    by_cases hrest : rest = []
    · subst hrest
      exact .inr ⟨text, List.mem_cons_self, hc⟩
    · rw [join_cons hrest, String.toList_append, String.toList_append, List.mem_append,
        List.mem_append] at hc
      rcases hc with (hc | hc) | hc
      · exact .inr ⟨text, List.mem_cons_self, hc⟩
      · exact .inl hc
      · exact (ih hc).imp_right fun ⟨other, hother, hmem⟩ =>
          ⟨other, List.mem_cons_of_mem _ hother, hmem⟩

/-- A text without a line end in front of another joins its first line. -/
theorem splitAt_append_of_notMem {sep : Char} {ds v : List Char} {vs : List (List Char)}
    (h : sep ∉ ds) (hcs : splitAt sep cs = v :: vs) :
    splitAt sep (ds ++ cs) = (ds ++ v) :: vs := by
  induction ds with
  | nil => exact hcs
  | cons d ds ih =>
    rw [List.mem_cons, not_or] at h
    rw [List.cons_append, splitAt, if_neg (Ne.symm h.1), ih h.2, List.cons_append]

theorem lines_lead_append (hlead : '\n' ∉ lead.toList) (s : String) :
    ∃ first, lines (lead ++ s) = (lead ++ first) :: (lines s).tail := by
  unfold lines
  rw [String.toList_append]
  cases hs : splitAt '\n' s.toList with
  | nil => exact absurd hs (splitAt_ne_nil _ _)
  | cons v vs =>
    refine ⟨String.ofList v, ?_⟩
    rw [splitAt_append_of_notMem hlead hs, List.map_cons, List.map_cons, List.tail_cons,
      String.ofList_append, String.ofList_toList]

theorem tail_lines_append (hlead : '\n' ∉ lead.toList) (s : String) :
    (lines (lead ++ s)).tail = (lines s).tail := by
  obtain ⟨first, hlines⟩ := lines_lead_append hlead s
  rw [hlines, List.tail_cons]

theorem startsWith_append (lead s : String) : startsWith (lead ++ s) lead = true := by
  unfold startsWith
  rw [String.toList_append, List.isPrefixOf_iff_prefix]
  exact List.prefix_append _ _

end Text

/-- A part keeps the constraints of the whole. -/
theorem Specification.constraintList_derive (s : Specification) (description : String)
    (tests : List TestCase) : (s.derive description tests).constraintList = s.constraintList := by
  change (nonEmpty s.constraintList).getD [] = s.constraintList
  cases s.constraintList with
  | nil => rfl
  | cons c cs => rfl

theorem Strategy.Stages.constraintList_part (s : Specification) (step : Step) :
    (part s step).constraintList = s.constraintList ++ ["part of: " ++ s.description] :=
  congrArg (· ++ ["part of: " ++ s.description]) (s.constraintList_derive step.description [])

namespace Scaffold

open Synthesis.Text

/-- The mark of a comment. -/
def mark : String := "# "

/-- All lines of a text but the first are comments. -/
def staysComment (text : String) : Bool := (lines text).tail.all fun line => startsWith line mark

theorem lines_marked_iff (text : String) :
    (∀ line ∈ lines (mark ++ text), startsWith line mark = true) ↔ staysComment text = true := by
  have hmark : '\n' ∉ mark.toList := by decide
  obtain ⟨first, hlines⟩ := lines_lead_append hmark text
  rw [hlines, List.forall_mem_cons, staysComment, List.all_eq_true]
  exact and_iff_right (startsWith_append mark first)

theorem staysComment_append {lead : String} (hlead : '\n' ∉ lead.toList) (text : String) :
    staysComment (lead ++ text) = staysComment text := by
  rw [staysComment, staysComment, tail_lines_append hlead]

/-- Lower-case letters, digits and underscores, with no digit in front. -/
structure IsIdentifier (name : String) : Prop where
  nonempty : name ≠ ""
  chars : ∀ c ∈ name.toList, (isAsciiLower c || isAsciiDigit c || c == '_') = true
  start : ∀ c, name.toList.head? = some c → isAsciiDigit c = false

theorem token_of_mem_all {text word : String} (h : word ∈ Tokens.all text) :
    word ≠ "" ∧ ∀ c ∈ word.toList, Tokens.isTokenChar c = true := by
  obtain ⟨cs, hcs, rfl⟩ := List.mem_map.mp h
  obtain ⟨hne, hchars⟩ := keep_of_mem_runs hcs
  rw [String.toList_ofList]
  refine ⟨fun hempty => hne ?_, hchars⟩
  rw [← String.toList_ofList (l := cs), hempty]
  rfl

theorem join_cons_ne_empty {word : String} (hword : word ≠ "") (rest : List String) :
    join "_" (word :: rest) ≠ "" := by
  intro hempty
  cases rest with
  | nil => exact hword hempty
  | cons other rest =>
    rw [join_cons (List.cons_ne_nil _ _)] at hempty
    exact hword (String.append_eq_empty_iff.mp (String.append_eq_empty_iff.mp hempty).1).1

/-- The words of a name make an identifier, up to a digit in front. -/
theorem isIdentifier_of_words {words : List String} (hsome : words ≠ [])
    (hwords : ∀ word ∈ words, word ≠ "" ∧ ∀ c ∈ word.toList, Tokens.isTokenChar c = true) :
    join "_" words ≠ "" ∧ ∀ c ∈ (join "_" words).toList,
      (isAsciiLower c || isAsciiDigit c || c == '_') = true := by
  constructor
  · cases words with
    | nil => exact absurd rfl hsome
    | cons word rest => exact join_cons_ne_empty (hwords word List.mem_cons_self).1 rest
  · intro c hc
    rcases mem_of_mem_join hc with hsep | ⟨word, hword, hmem⟩
    · obtain rfl := List.mem_singleton.mp hsep
      decide
    · have htoken := (hwords word hword).2 c hmem
      rw [Tokens.isTokenChar] at htoken
      rw [htoken, Bool.true_or]

theorem functionName_isIdentifier (description : String) :
    IsIdentifier (functionName description) := by
  have htokens : ∀ word ∈ (Tokens.all description).take nameWords,
      word ≠ "" ∧ ∀ c ∈ word.toList, Tokens.isTokenChar c = true :=
    fun word hword => token_of_mem_all (List.mem_of_mem_take hword)
  unfold functionName
  split
  next => exact ⟨by decide, by simp [isAsciiLower], by simp [isAsciiDigit]⟩
  next words hsome =>
    obtain ⟨hne, hchars⟩ := isIdentifier_of_words hsome htokens
    dsimp only
    split
    next =>
      refine ⟨by simp, ?_, by simp [isAsciiDigit]⟩
      intro c hc
      rw [String.toList_append, List.mem_append] at hc
      rcases hc with hlead | hname
      · have hlead : c = 'f' ∨ c = '_' := by simpa using hlead
        rcases hlead with rfl | rfl
        · decide
        · decide
      · exact hchars c hname
    next hstart =>
      refine ⟨hne, hchars, fun c hhead => ?_⟩
      rw [hhead] at hstart
      simpa using hstart

theorem notMem_functionName (description : String) :
    '\n' ∉ (functionName description).toList := by
  intro hmem
  have hchar := (functionName_isIdentifier description).chars '\n' hmem
  revert hchar
  decide

-- The lines of the code.

/-- The texts that are written behind a comment mark. -/
def comments (s : Specification) (hints : Hints) : List String :=
  s.summary :: (s.constraintList.map fun c => "requires: " ++ c) ++
    hints.abstractions.map fun a => "uses: " ++ a.abstraction.name

/-- The line that begins a function. -/
def definition (name params : String) : String := "def " ++ name ++ "(" ++ params ++ "):"

/-- The line that leaves its body open. -/
def openBody : String := "    raise NotImplementedError"

/-- The parameters that a specification gives. -/
def params (s : Specification) : String := if s.hasTypeSignature then "args" else "*args"

theorem code_eq (s : Specification) (hints : Hints) :
    code s hints = String.join ((comments s hints).map comment) ++
      (definition (functionName s.description) (params s) ++ "\n" ++ openBody) := by
  have hend : "):\n    raise NotImplementedError" = "):" ++ ("\n" ++ openBody) := by decide
  unfold code comments definition params
  rw [hend, List.cons_append, List.map_cons, List.map_append, List.map_map, List.map_map,
    String.join_cons, String.join_append]
  simp only [String.append_assoc]
  rfl

theorem lines_comments (texts : List String) (rest : String) :
    lines (String.join (texts.map comment) ++ rest) =
      texts.flatMap (fun t => lines (mark ++ t)) ++ lines rest := by
  induction texts with
  | nil => simp
  | cons t texts ih =>
    have hcomment : comment t = mark ++ t ++ "\n" := rfl
    rw [List.map_cons, String.join_cons, String.append_assoc, hcomment, lines_append, ih,
      List.flatMap_cons, List.append_assoc]

theorem lines_code (s : Specification) (hints : Hints) :
    lines (code s hints) = (comments s hints).flatMap (fun t => lines (mark ++ t)) ++
      [definition (functionName s.description) (params s), openBody] := by
  have hname := notMem_functionName s.description
  have hparams : '\n' ∉ (params s).toList := by
    unfold params
    split
    · decide
    · decide
  have hhead : '\n' ∉ (definition (functionName s.description) (params s)).toList := by
    unfold definition
    simp [hname, hparams]
  have hbody : '\n' ∉ openBody.toList := by decide
  rw [code_eq, lines_comments, lines_append, lines_of_notMem hhead, lines_of_notMem hbody]
  rfl

/-- The texts that are written as they are, line ends and all. -/
def carried (s : Specification) (hints : Hints) : List String :=
  trim s.typeSignature :: s.constraintList ++ hints.abstractions.map (·.abstraction.name)

/-- The description of a summary is on one line. -/
theorem notMem_shortened (description : String) :
    '\n' ∉ (Specification.shortened (join " " (words description))).toList := by
  have hwords : '\n' ∉ (join " " (words description)).toList := by
    intro hmem
    rcases mem_of_mem_join hmem with hsep | ⟨word, hword, hchar⟩
    · revert hsep
      decide
    · obtain ⟨cs, hcs, rfl⟩ := List.mem_map.mp hword
      rw [String.toList_ofList] at hchar
      have hkept := (keep_of_mem_runs hcs).2 '\n' hchar
      revert hkept
      decide
  unfold Specification.shortened
  dsimp only
  split
  · rw [String.toList_append, String.toList_ofList, List.mem_append, not_or]
    exact ⟨fun hmem => hwords (List.mem_of_mem_take hmem), by decide⟩
  · exact hwords

theorem staysComment_of_notMem {text : String} (h : '\n' ∉ text.toList) :
    staysComment text = true := by
  rw [staysComment, lines_of_notMem h]
  rfl

theorem staysComment_summary (s : Specification) :
    staysComment s.summary = staysComment (trim s.typeSignature) := by
  have hdescription := notMem_shortened s.description
  unfold Specification.summary
  dsimp only
  split
  next =>
    apply staysComment_append
    rw [String.toList_append, List.mem_append, not_or]
    exact ⟨hdescription, by decide⟩
  next hnone =>
    have hblank : trim s.typeSignature = "" := by simpa [Specification.hasTypeSignature] using hnone
    rw [staysComment_of_notMem hdescription, hblank]
    rfl

/-- What is written behind the marks stays a comment just when what is carried does. -/
theorem comments_stay_iff (s : Specification) (hints : Hints) :
    (∀ text ∈ comments s hints, staysComment text = true) ↔
      ∀ text ∈ carried s hints, staysComment text = true := by
  have hrequires (c : String) : staysComment ("requires: " ++ c) = staysComment c :=
    staysComment_append (by decide) c
  have huses (a : String) : staysComment ("uses: " ++ a) = staysComment a :=
    staysComment_append (by decide) a
  simp only [comments, carried, List.forall_mem_append, List.forall_mem_cons, List.forall_mem_map,
    staysComment_summary, hrequires, huses]

/-- Comments, then a function with a proper name and an open body. -/
def WellFormed (code : String) : Prop :=
  ∃ heads name params, lines code = heads ++ [definition name params, openBody] ∧
    (∀ line ∈ heads, startsWith line mark = true) ∧ IsIdentifier name

theorem wellFormed_code_iff (s : Specification) (hints : Hints) :
    WellFormed (code s hints) ↔ ∀ text ∈ carried s hints, staysComment text = true := by
  have hmarked : (∀ line ∈ (comments s hints).flatMap fun t => lines (mark ++ t),
      startsWith line mark = true) ↔ ∀ text ∈ carried s hints, staysComment text = true := by
    rw [← comments_stay_iff, List.forall_mem_flatMap]
    exact forall₂_congr fun text _ => lines_marked_iff text
  rw [← hmarked]
  constructor
  · rintro ⟨heads, name, params, hlines, hheads, -⟩
    rw [lines_code] at hlines
    rw [(List.append_inj' hlines (by simp)).1]
    exact hheads
  · intro hheads
    exact ⟨_, _, _, lines_code s hints, hheads, functionName_isIdentifier s.description⟩

/-- A recognised step has no signature, and carries the whole description in a constraint. -/
theorem carried_part_iff (s : Specification) (hints : Hints) (step : Strategy.Stages.Step) :
    (∀ text ∈ carried (Strategy.Stages.part s step) hints, staysComment text = true) ↔
      ∀ text ∈ s.description :: s.constraintList ++ hints.abstractions.map (·.abstraction.name),
        staysComment text = true := by
  have hpart : staysComment ("part of: " ++ s.description) = staysComment s.description :=
    staysComment_append (by decide) _
  have hsignature : staysComment (trim (Strategy.Stages.part s step).typeSignature) = true := by
    rw [show (Strategy.Stages.part s step).typeSignature = "" from rfl]
    decide
  simp only [carried, Strategy.Stages.constraintList_part, List.forall_mem_append,
    List.forall_mem_cons, hsignature, hpart, List.not_mem_nil, false_implies, implies_true,
    true_and, and_true]
  rw [and_comm (a := staysComment s.description = true)]

theorem generator_of_live {σ : Type} (s : Specification) (c : Context) (hints : Hints) {call : Call}
    (hlive : call.stopped = none) (state : σ) :
    (generator s c hints call state).outcome = .ok (candidate s hints) := by
  unfold generator
  rw [hlive]

/-- A live generator always answers with a scaffold. It ends in a function with a proper name and an
open body. All lines before are comments just when the type signature, the constraints and the names
of the abstractions have no later line that is no comment; for a recognised step of a specification
this is asked of its description instead of the signature. -/
theorem scaffold_wellFormed_iff {σ : Type} (s : Specification) (c : Context) (hints : Hints)
    {call : Call} (hlive : call.stopped = none) (state : σ) :
    ∃ candidate, (generator s c hints call state).outcome = .ok candidate ∧
      (∃ heads name params, lines candidate.code = heads ++ [definition name params, openBody] ∧
        IsIdentifier name) ∧
      (WellFormed candidate.code ↔ ∀ text ∈ carried s hints, staysComment text = true) ∧
      ∀ part ∈ Strategy.Stages.decompose s,
        (WellFormed (code part.specification hints) ↔
          ∀ text ∈ s.description :: s.constraintList ++ hints.abstractions.map (·.abstraction.name),
            staysComment text = true) := by
  have hanswer := generator_of_live s c hints hlive state
  have hcode : (candidate s hints).code = code s hints := rfl
  refine ⟨candidate s hints, hanswer, ?_, ?_, ?_⟩
  · rw [hcode]
    exact ⟨_, _, _, lines_code s hints, functionName_isIdentifier s.description⟩
  · rw [hcode]
    exact wellFormed_code_iff s hints
  intro part hpart
  obtain ⟨step, -, hspecification⟩ := Strategy.Stages.exists_step hpart
  rw [hspecification, wellFormed_code_iff, carried_part_iff]

/-- A description of two lines, and a constraint whose second line is a comment already. -/
def outline : Specification :=
  { description := "parse 2 lists\nand sum them", typeSignature := " (xs, ys) -> int "
    constraints := some ["keep order\n# of both"] }

/-- The scaffold of the whole is well formed, and those of its steps are not. -/
theorem scaffold_wellFormed_iff_outline :
    ({} : Call).stopped = none ∧
      (∃ candidate, (generator outline {} {} {} ()).outcome = .ok candidate ∧
        WellFormed candidate.code) ∧
      ∃ part ∈ Strategy.Stages.decompose outline, ¬ WellFormed (code part.specification {}) := by
  have hlive : ({} : Call).stopped = none := rfl
  obtain ⟨candidate, hanswer, -, hwhole, hparts⟩ :=
    scaffold_wellFormed_iff outline {} {} hlive ()
  have hlength : (Strategy.Stages.decompose outline).length = 2 := by decide +kernel
  obtain ⟨part, hpart⟩ := List.exists_mem_of_length_pos (hlength ▸ Nat.two_pos)
  have hbroken : staysComment outline.description = false := by decide +kernel
  refine ⟨hlive, ⟨candidate, hanswer, hwhole.mpr ?_⟩, part, hpart, fun hformed => ?_⟩
  · have hall : (carried outline {}).all staysComment = true := by decide +kernel
    exact List.all_eq_true.mp hall
  · have hstays := (hparts part hpart).mp hformed outline.description List.mem_cons_self
    rw [hbroken] at hstays
    cases hstays

/-- A constraint of two lines. -/
def loose : Specification :=
  { description := "root", constraints := some ["keep order\nkeep duplicates"] }

/-- The second line of a constraint is written as code. -/
theorem loose_constraint_is_code :
    (generator loose {} {} {} ()).outcome = .ok (candidate loose {}) ∧
      lines (candidate loose {}).code = ["# root", "# requires: keep order", "keep duplicates",
        "def root(*args):", "    raise NotImplementedError"] ∧
      ¬ WellFormed (candidate loose {}).code := by
  refine ⟨generator_of_live loose {} {} rfl (), by decide +kernel, fun hformed => ?_⟩
  have hstays := (wellFormed_code_iff loose {}).mp hformed "keep order\nkeep duplicates"
    (List.mem_cons_of_mem _ List.mem_cons_self)
  revert hstays
  decide +kernel

end Scaffold

end Synthesis
