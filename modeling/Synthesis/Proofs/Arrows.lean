import Synthesis.Proofs.SignatureText

/-!
Function types in a list of parameters. The head of an arrow looks like a closing bracket, so
behind an arrow the brackets are counted one too low: the commas between parameters do not cut any
more, and those directly inside one bracket do. The list is read back exactly when there is no such
comma: a function type stands last, and what it results in has no comma inside one bracket only.
-/
namespace Synthesis.Signature

open Text

/-- A type, or the type of a function by what it takes and what it results in. -/
inductive Form where
  | plain (type : String)
  | function (input output : String)

namespace Form

def text : Form → String
  | .plain type => type
  | .function input output => input ++ " -> " ++ output

def isPlain : Form → Bool
  | .plain _ => true
  | .function _ _ => false

/-- Every type in it is well formed. -/
def IsWritable : Form → Prop
  | .plain type => IsType type
  | .function input output => IsType input ∧ IsType output

instance (form : Form) : Decidable form.IsWritable :=
  match form with
  | .plain type => inferInstanceAs (Decidable (IsType type))
  | .function input output => inferInstanceAs (Decidable (IsType input ∧ IsType output))

end Form

/-- A parameter with the form of its type. -/
structure Typed where
  name : String
  form : Form

namespace Typed

def param (x : Typed) : Param := ⟨x.name, x.form.text⟩

structure IsWritable (x : Typed) : Prop where
  name : IsName x.name
  form : x.form.IsWritable

instance (x : Typed) : Decidable x.IsWritable :=
  decidable_of_iff (IsName x.name ∧ x.form.IsWritable)
    ⟨fun h => ⟨h.1, h.2⟩, fun h => ⟨h.name, h.form⟩⟩

/-- The parameter as it stands in a list. -/
def entry (x : Typed) : String := written ": " x.param

end Typed

/-- What stands in front of the output of a function type. -/
def upToArrow (name input : String) : List Char :=
  name.toList ++ (": ".toList ++ (input.toList ++ " -> ".toList))

section Function

variable {name input output : String} {lead : List Char}

theorem toList_entry (name input output : String) :
    (Typed.entry ⟨name, .function input output⟩).toList =
      upToArrow name input ++ output.toList := by
  simp [Typed.entry, Typed.param, Form.text, toList_written, upToArrow]

theorem not_commaAt_upToArrow (hname : IsName name) (hinput : IsType input)
    (hlead : ∀ c ∈ lead, isBlank c = true) : ¬ CommaAt 0 (lead ++ upToArrow name input) := by
  have hblank := isPiece_of_blank hlead
  have hcolon : IsPiece ": ".toList := isPiece_of_all (by decide)
  have hfront := hblank.append (hname.isPiece.append (hcolon.append hinput.nests.isPiece))
  have hshape : lead ++ upToArrow name input =
      lead ++ (name.toList ++ (": ".toList ++ input.toList)) ++ " -> ".toList := by
    simp [upToArrow]
  rw [hshape, commaAt_append, not_or]
  exact ⟨hfront.uncut, not_commaAt_of_notMem (by decide) _⟩

theorem level_upToArrow (hname : IsName name) (hinput : IsType input)
    (hlead : ∀ c ∈ lead, isBlank c = true) : level (lead ++ upToArrow name input) = -1 := by
  have hblank := isPiece_of_blank hlead
  have hcolon : level ": ".toList = 0 := by decide
  have harrow : level " -> ".toList = -1 := by decide
  rw [upToArrow, level_append, level_append, level_append, level_append, hblank.level,
    hname.isPiece.level, hcolon, hinput.nests.isPiece.level, harrow]
  rfl

/-- Behind the arrow the depth is one too low. -/
theorem splitTop_upToArrow (hname : IsName name) (hinput : IsType input)
    (hlead : ∀ c ∈ lead, isBlank c = true) (rest : List Char) :
    splitTop 0 (lead ++ upToArrow name input ++ rest) =
      (splitTop (-1) rest).modifyHead (lead ++ upToArrow name input ++ ·) := by
  rw [splitTop_append 0 (not_commaAt_upToArrow hname hinput hlead), level_upToArrow hname hinput
    hlead]
  rfl

/-- The first parameter is read from the first piece behind the name. -/
theorem reads_first {tail : List Char} {cs : List Char} {pieces : List (List Char)}
    (hlead : ∀ c ∈ lead, isBlank c = true) (hname : IsName name)
    (hsplit : splitTop 0 cs = (lead ++ (name.toList ++ ':' :: tail)) :: pieces) (place : Nat) :
    reads place cs = ⟨name, trimmed tail⟩ :: (pieces.zipIdx (place + 1)).filterMap read? := by
  rw [reads, hsplit, List.zipIdx_cons,
    List.filterMap_cons_some (read?_colon hlead hname tail place)]

theorem toList_text_function (input output : String) :
    (Form.function input output).text.toList =
      input.toList ++ (" -> ".toList ++ output.toList) := by
  simp [Form.text]

theorem trim_text_function (hinput : IsType input) (houtput : IsType output) :
    trim (Form.function input output).text = (Form.function input output).text := by
  have hstrip := strip_between hinput.trimmed houtput.trimmed hinput.ne_nil houtput.ne_nil
    " -> ".toList
  rw [trim, toList_text_function, hstrip, ← toList_text_function, String.ofList_toList]

/-- A type that is cut inside its output comes out too short. -/
theorem trimmed_ne_of_cut {front back : List Char} (h : output.toList = front ++ ',' :: back) :
    trimmed (' ' :: (input.toList ++ (" -> ".toList ++ front))) ≠
      (Form.function input output).text := by
  intro heq
  have hlength := congrArg (·.toList.length) heq
  have hshort := length_strip_le isBlank (input.toList ++ (" -> ".toList ++ front))
  rw [trimmed, String.toList_ofList, ← List.singleton_append,
    strip_append_left (by simp [isBlank]), toList_text_function, h] at hlength
  simp only [List.length_append, List.length_cons] at hlength hshort
  omega

/-- A type that goes on behind a comma comes out too long. -/
theorem trimmed_ne_of_comma {type : String} (htrim : trim type = type) (hsome : type.toList ≠ [])
    (rest : List Char) : trimmed (' ' :: (type.toList ++ ',' :: rest)) ≠ type := by
  intro heq
  obtain ⟨a, as, ha⟩ := List.exists_cons_of_ne_nil hsome
  have hstart : isBlank a = false := head_of_strip_eq (ha ▸ strip_of_trim htrim)
  have hlength := congrArg (·.toList.length) heq
  rw [trimmed, String.toList_ofList, ← List.singleton_append,
    strip_append_left (by simp [isBlank]), ha, List.cons_append, strip_enclosed hstart (by decide)]
    at hlength
  simp only [List.length_append, List.length_cons] at hlength
  omega

/-- Of a function type and what follows, the first parameter is read right just when nothing
follows and no comma of the output is inside one bracket only. -/
theorem reads_function_iff (hname : IsName name) (hinput : IsType input) (houtput : IsType output)
    (hlead : ∀ c ∈ lead, isBlank c = true) (place : Nat) (later : List Typed) :
    reads place (lead ++ listed ((⟨name, .function input output⟩ :: later).map Typed.entry)) =
        (⟨name, .function input output⟩ :: later).map Typed.param ↔
      later = [] ∧ ¬ CommaAt 1 output.toList := by
  have hshape : ∀ rest : List Char, lead ++ upToArrow name input ++ rest =
      lead ++ (name.toList ++ ':' :: ' ' :: (input.toList ++ (" -> ".toList ++ rest))) := by
    intro rest
    simp [upToArrow]
  obtain ⟨rest, hrest, hlater⟩ : ∃ rest,
      lead ++ listed ((⟨name, .function input output⟩ :: later).map Typed.entry) =
        lead ++ upToArrow name input ++ (output.toList ++ rest) ∧
      (later = [] ∧ rest = [] ∨ later ≠ [] ∧ ∃ more, rest = ',' :: more) := by
    cases later with
    | nil =>
      refine ⟨[], ?_, Or.inl ⟨rfl, rfl⟩⟩
      rw [List.append_nil, List.append_assoc, ← toList_entry]
      rfl
    | cons y later =>
      refine ⟨',' :: ' ' :: listed ((y :: later).map Typed.entry), ?_,
        Or.inr ⟨List.cons_ne_nil _ _, _, rfl⟩⟩
      rw [List.map_cons, List.map_cons, listed_cons_cons, toList_entry]
      simp
  have hsplit := splitTop_upToArrow hname hinput hlead (output.toList ++ rest)
  have hdepth : (1 : Int) = - -1 := by decide
  rw [hrest, List.map_cons]
  by_cases hcomma : CommaAt 1 output.toList
  · -- The first piece ends inside the output.
    obtain ⟨front, back, pieces, hcut, hpieces⟩ := splitTop_of_commaAt (-1) (hdepth ▸ hcomma) rest
    rw [hpieces, List.modifyHead_cons, hshape front] at hsplit
    rw [reads_first hlead hname hsplit]
    refine iff_of_false (fun heq => ?_) (fun h => h.2 hcomma)
    exact trimmed_ne_of_cut hcut (congrArg Param.type (List.cons.inj heq).1)
  · rcases hlater with ⟨rfl, rfl⟩ | ⟨hsome, more, rfl⟩
    · have hwhole : splitTop (-1) (output.toList ++ []) = [output.toList] := by
        rw [splitTop_append (-1) (hdepth ▸ hcomma)]
        simp [splitTop]
      rw [hwhole, List.modifyHead_cons, hshape output.toList, ← toList_text_function] at hsplit
      rw [reads_first hlead hname hsplit, trimmed_blank_cons (trim_text_function hinput houtput)]
      exact iff_of_true rfl ⟨rfl, hcomma⟩
    · -- The comma behind the output does not cut, so the first piece goes on behind it.
      have huncut : ¬ CommaAt (- -1) (output.toList ++ [',']) := by
        rw [commaAt_append, commaAt_cons, not_or, houtput.nests.isPiece.level]
        refine ⟨hdepth ▸ hcomma, not_or.mpr ⟨by decide, ?_⟩⟩
        exact not_commaAt_of_notMem List.not_mem_nil _
      obtain ⟨w, ws, hmore⟩ := List.exists_cons_of_ne_nil
        (splitTop_ne_nil (-1 + level (output.toList ++ [','])) more)
      have hwhole : splitTop (-1) (output.toList ++ ',' :: more) =
          (output.toList ++ ',' :: w) :: ws := by
        rw [List.append_cons, splitTop_append (-1) huncut, hmore]
        simp
      rw [hwhole, List.modifyHead_cons, hshape (output.toList ++ ',' :: w),
        ← List.append_assoc " -> ".toList, ← List.append_assoc input.toList,
        ← toList_text_function] at hsplit
      rw [reads_first hlead hname hsplit]
      refine iff_of_false (fun heq => ?_) (fun h => hsome h.1)
      exact trimmed_ne_of_comma (trim_text_function hinput houtput)
        (by rw [toList_text_function]; simp) w (congrArg Param.type (List.cons.inj heq).1)

end Function

/-- Only the last type is that of a function, and no comma of its output is inside one bracket
only. -/
def Harmless : List Typed → Prop
  | [] => True
  | x :: later =>
    match x.form with
    | .plain _ => Harmless later
    | .function _ output => later = [] ∧ ¬ CommaAt 1 output.toList

theorem Typed.IsWritable.passes {x : Typed} (h : x.IsWritable) : Passes x.entry.toList := by
  obtain ⟨name, form⟩ := x
  obtain ⟨hname, hform⟩ := h
  cases form with
  | plain type =>
    have hparam : Signature.IsWritable ⟨name, type⟩ := ⟨hname, hform⟩
    exact hparam.passes (by decide)
  | function input output =>
    have hcolon : Passes ": ".toList := passes_of_notMem (by decide) (by decide)
    have harrow : Passes " -> ".toList := passes_of_notMem (by decide) (by decide)
    rw [toList_entry]
    exact (hname.passes.append (hcolon.append (hform.1.nests.passes.append harrow))).append
      hform.2.nests.passes

/-- Parameters of plain types are read as they stand, up to the first function type; the list is
read as a whole just when its arrows are harmless. -/
theorem reads_entries {xs : List Typed} (h : ∀ x ∈ xs, x.IsWritable) {lead : List Char}
    (hlead : ∀ c ∈ lead, isBlank c = true) (place : Nat) :
    (xs.takeWhile (·.form.isPlain)).map Typed.param <+:
        reads place (lead ++ listed (xs.map Typed.entry)) ∧
      (reads place (lead ++ listed (xs.map Typed.entry)) = xs.map Typed.param ↔ Harmless xs) := by
  induction xs generalizing lead place with
  | nil =>
    have hnone : reads place (lead ++ listed []) = [] := by
      rw [listed, join, String.toList_empty, List.append_nil]
      exact reads_of_blank hlead place
    exact ⟨List.nil_prefix, iff_of_true hnone trivial⟩
  | cons x later ih =>
    obtain ⟨⟨hname, hform⟩, hlater⟩ := List.forall_mem_cons.mp h
    obtain ⟨name, form⟩ := x
    cases form with
    | function input output =>
      exact ⟨List.nil_prefix, reads_function_iff hname hform.1 hform.2 hlead place later⟩
    | plain type =>
      have hwritable : Signature.IsWritable ⟨name, type⟩ := ⟨hname, hform⟩
      have hblank := isPiece_of_blank hlead
      have hcolon : ": ".toList.all (!matters ·) = true := by decide
      have hpiece := hblank.append (hwritable.isPiece hcolon)
      have hread := hwritable.readsAs_colon hlead
      obtain ⟨more, hmore, hprefix, hiff⟩ : ∃ more,
          reads place (lead ++ listed ((⟨name, .plain type⟩ :: later).map Typed.entry)) =
            ⟨name, type⟩ :: more ∧
          (later.takeWhile (·.form.isPlain)).map Typed.param <+: more ∧
          (more = later.map Typed.param ↔ Harmless later) := by
        cases later with
        | nil =>
          exact ⟨[], reads_piece hpiece hread place, List.nil_prefix, iff_of_true rfl trivial⟩
        | cons y later =>
          have hnext : ∀ c ∈ [' '], isBlank c = true := by simp [isBlank]
          refine ⟨_, ?_, ih hlater hnext (place + 1)⟩
          rw [List.map_cons, List.map_cons, listed_cons_cons, ← List.append_assoc]
          exact reads_piece_comma hpiece hread place _
      rw [hmore]
      refine ⟨(List.prefix_cons_inj _).mpr hprefix, ?_⟩
      rw [List.map_cons, List.cons.injEq]
      exact (and_iff_right rfl).trans hiff

/-- A signature with function types is always read, with its result type and with the parameters in
front of the first function type. All its parameters are read exactly when its arrows are
harmless. -/
theorem arrows_read_back_iff (xs : List Typed) (hxs : ∀ x ∈ xs, x.IsWritable) (returns : String)
    (hreturns : trim returns = returns) :
    ∃ found, parse? (text ⟨xs.map Typed.param, returns⟩) = some ⟨found, returns⟩ ∧
      (xs.takeWhile (·.form.isPlain)).map Typed.param <+: found ∧
      (found = xs.map Typed.param ↔ Harmless xs) := by
  have hentries : (xs.map Typed.param).map (written ": ") = xs.map Typed.entry := List.map_map
  have hpasses : Passes (listed (xs.map Typed.entry)) := by
    refine Passes.listed fun x hx => ?_
    obtain ⟨y, hy, rfl⟩ := List.mem_map.mp hx
    exact (hxs y hy).passes
  have htext := toList_text ⟨xs.map Typed.param, returns⟩
  dsimp only at htext
  rw [hentries] at htext
  have hparse := parse?_enclosed (Or.inl rfl) htext hpasses
  rw [returns_arrow hreturns] at hparse
  exact ⟨_, hparse, reads_entries hxs (List.forall_mem_nil _) 0⟩

/-- A function over the members of a list, in front of the list and behind it. -/
def mapped : List Typed := [⟨"f", .function "int" "str"⟩, ⟨"xs", .plain "List[int]"⟩]

theorem arrows_read_back_iff_mapped :
    (∀ x ∈ mapped.reverse, x.IsWritable) ∧ Harmless mapped.reverse ∧
      parse? "(xs: List[int], f: int -> str) -> bool" =
        some ⟨[⟨"xs", "List[int]"⟩, ⟨"f", "int -> str"⟩], "bool"⟩ := by
  have hwritable : ∀ x ∈ mapped.reverse, x.IsWritable := by decide
  have hharmless : Harmless mapped.reverse :=
    ⟨rfl, not_commaAt_of_notMem (by decide) 1⟩
  obtain ⟨found, hparse, _, hiff⟩ :=
    arrows_read_back_iff mapped.reverse hwritable "bool" (by decide)
  rw [hiff.mpr hharmless] at hparse
  exact ⟨hwritable, hharmless, hparse⟩

/-- The list behind the function becomes a part of its type. -/
theorem mapped_is_swallowed :
    (∀ x ∈ mapped, x.IsWritable) ∧
      text ⟨mapped.map Typed.param, "bool"⟩ = "(f: int -> str, xs: List[int]) -> bool" ∧
      parse? "(f: int -> str, xs: List[int]) -> bool" =
        some ⟨[⟨"f", "int -> str, xs: List[int]"⟩], "bool"⟩ ∧
      parse? "(f: int -> str, xs: List[int]) -> bool" ≠
        some ⟨mapped.map Typed.param, "bool"⟩ := by
  decide

end Synthesis.Signature
