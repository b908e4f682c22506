import Synthesis.Proofs.Emission
import Synthesis.Proofs.Numerals

/-!
The slots that the built-in strategies give to their parts. Categories, operations and steps have
slots of their own, and a parameter has its name in its slot. So the solved parts are composed,
unless the signature calls two parameters by one name: it gives the name twice, or it gives a name
that is also made of the place of a nameless parameter. Names made of places alone never clash.
-/
namespace Synthesis

namespace Signature

open Text

/-- The name that a piece of a signature gives to its parameter, if it gives one. -/
def givenName? (part : List Char) : Option String :=
  match cutAt ':' part with
  | some (n, _) => some (trimmed n)
  | none =>
    match cutAt ' ' part with
    | some (n, _) => if hasTypeBracket n then none else some (trimmed n)
    | none => none

/-- The name of a nameless parameter. -/
def placeName (i : Nat) : String := "arg" ++ Decimal.natText i

/-- What the parameter of a piece is called at its place. -/
def called (x : List Char × Nat) : String := (givenName? x.1).getD (placeName x.2)

/-- What stands between the parentheses of a signature. -/
def parameterText? (raw : String) : Option (List Char) :=
  let cs := strip isBlank (dropLead "func".toList (strip isBlank raw.toList))
  if cs.head? = some '(' then (matching? 0 cs).map (·.1) else none

/-- The pieces that hold a parameter, each with its place. -/
def placed (inner : List Char) : List (List Char × Nat) :=
  (splitTop 0 inner).zipIdx.filterMap fun x =>
    if (strip isBlank x.1).isEmpty then none else some (strip isBlank x.1, x.2)

/-- Two parameters are called by one name, and the signature gives it to one of them. -/
def SameName (x y : List Char × Nat) : Prop :=
  (givenName? x.1 ≠ none ∨ givenName? y.1 ≠ none) ∧ called x = called y

instance : DecidableRel SameName := fun x y =>
  inferInstanceAs
    (Decidable ((givenName? x.1 ≠ none ∨ givenName? y.1 ≠ none) ∧ called x = called y))

/-- A signature gives no name that another parameter has. -/
def Apart (raw : String) : Prop :=
  ∀ inner, parameterText? raw = some inner → (placed inner).Pairwise fun x y => ¬ SameName x y

theorem placeName_injective : Function.Injective placeName := by
  intro i j h
  have hdigits := congrArg String.toList ((String.append_right_inj _).mp h)
  rw [Decimal.natText, Decimal.natText, String.toList_ofList, String.toList_ofList] at hdigits
  rw [← Decimal.natOfDigits_digits i, hdigits, Decimal.natOfDigits_digits]

theorem name_param (x : List Char × Nat) : (param x.1 x.2).name = called x := by
  unfold param called givenName?
  cases cutAt ':' x.1 with
  | some cut => rfl
  | none =>
    cases cutAt ' ' x.1 with
    | some cut =>
      dsimp only
      split
      · rfl
      · rfl
    | none => rfl

theorem paramsOf_eq (inner : List Char) :
    paramsOf inner = (placed inner).map fun x => param x.1 x.2 := by
  rw [placed, List.map_filterMap]
  refine List.filterMap_congr fun x _ => ?_
  dsimp only
  split
  · rfl
  · rfl

theorem map_params_parse? (raw : String) :
    (parse? raw).map (·.params) = (parameterText? raw).map paramsOf := by
  unfold parse? parameterText?
  dsimp only
  split
  · split
    · rename_i hmatch
      rw [hmatch]
      rfl
    · rename_i hmatch
      rw [hmatch]
      rfl
  · rfl

theorem pairwise_place_placed (inner : List Char) :
    (placed inner).Pairwise fun x y => x.2 < y.2 := by
  have hplaces : (splitTop 0 inner).zipIdx.Pairwise fun x y => x.2 < y.2 := by
    rw [← List.pairwise_map, List.zipIdx_map_snd]
    exact List.pairwise_lt_range'
  refine List.Pairwise.filterMap _ ?_ hplaces
  intro x y hlt a ha b hb
  split at ha
  · cases ha
  · split at hb
    · cases hb
    · cases ha
      cases hb
      exact hlt

/-- Parameters at different places have one name only where the signature gives it. -/
theorem sameName_iff {x y : List Char × Nat} (hplace : x.2 ≠ y.2) :
    SameName x y ↔ called x = called y := by
  refine and_iff_right_of_imp fun hcalled => ?_
  by_contra hnameless
  rw [not_or, not_not, not_not] at hnameless
  unfold called at hcalled
  rw [hnameless.1, hnameless.2] at hcalled
  exact hplace (placeName_injective hcalled)

theorem nodup_names_iff (inner : List Char) :
    ((paramsOf inner).map (·.name)).Nodup ↔ (placed inner).Pairwise fun x y => ¬ SameName x y := by
  have hplaces := pairwise_place_placed inner
  rw [paramsOf_eq, List.map_map, List.Nodup, List.pairwise_map]
  simp only [Function.comp_apply, name_param]
  constructor
  · intro h
    exact (hplaces.and h).imp fun hxy => (not_congr (sameName_iff (Nat.ne_of_lt hxy.1))).mpr hxy.2
  · intro h
    exact (hplaces.and h).imp fun hxy => (not_congr (sameName_iff (Nat.ne_of_lt hxy.1))).mp hxy.2

/-- The names of the parameters are different just when the signature keeps them apart. -/
theorem nodup_names_iff_apart (raw : String) :
    (∀ sig, parse? raw = some sig → (sig.params.map (·.name)).Nodup) ↔ Apart raw := by
  have hparams := map_params_parse? raw
  constructor
  · intro h inner hinner
    rw [hinner, Option.map_some, Option.map_eq_some_iff] at hparams
    obtain ⟨sig, hsig, heq⟩ := hparams
    rw [← nodup_names_iff, ← heq]
    exact h sig hsig
  · intro h sig hsig
    rw [hsig, Option.map_some, eq_comm, Option.map_eq_some_iff] at hparams
    obtain ⟨inner, hinner, heq⟩ := hparams
    rw [← heq, nodup_names_iff]
    exact h inner hinner

end Signature

namespace Decomposition

/-- Subproblems that all have a slot claim these. -/
theorem slotNames_eq_map {subs : List Subproblem} (h : ∀ p ∈ subs, p.slot ≠ "") :
    slotNames subs = subs.map (·.slot) := by
  rw [← map_zipIdx (f := fun x => x.1.slot) (fun _ _ => rfl) subs, slotNames]
  refine List.map_congr_left fun x hx => ?_
  exact if_neg (h x.1 (List.fst_mem_of_mem_zipIdx hx))

end Decomposition

namespace Strategy

open Decomposition Synthesis.Composition

theorem ne_empty_of_lead {lead : String} (h : lead ≠ "") (name : String) : lead ++ name ≠ "" := by
  intro hempty
  exact h (String.append_eq_empty_iff.mp hempty).1

/-- Texts that begin with different letters are different, whatever follows. -/
theorem append_ne_append (a b : String)
    (h : a ≠ "" ∧ b ≠ "" ∧ a.toList.head? ≠ b.toList.head?) (x y : String) : a ++ x ≠ b ++ y := by
  obtain ⟨ha, hb, hheads⟩ := h
  intro heq
  have hlists := congrArg (fun text => text.toList.head?) heq
  rw [String.toList_append, String.toList_append,
    List.head?_append_of_ne_nil _ (by simpa using ha),
    List.head?_append_of_ne_nil _ (by simpa using hb)] at hlists
  exact hheads hlists

theorem nodup_map_append (lead : String) {names : List String} :
    (names.map (lead ++ ·)).Nodup ↔ names.Nodup :=
  List.nodup_map_iff fun _ _ h => (String.append_right_inj lead).mp h

theorem Parameters.slots_split (s : Specification) (sig : Signature) :
    slotNames (split s sig) = (sig.params.map (·.name)).map ("param:" ++ ·) ++ ["combine"] := by
  have hcombining : (combining s sig).slot = "combine" := rfl
  rw [slotNames_eq_map, split_eq, List.map_append, List.map_map, List.map_map, List.map_singleton,
    hcombining]
  · congr 1
    exact map_zipIdx (fun _ _ => rfl) sig.params
  · intro p hp
    rw [split_eq] at hp
    rcases List.mem_append.mp hp with hp | hp
    · obtain ⟨x, _, rfl⟩ := List.mem_map.mp hp
      exact ne_empty_of_lead (by decide) _
    · rw [List.mem_singleton.mp hp, hcombining]
      decide

theorem Parameters.nodup_slots_split (s : Specification) (sig : Signature) :
    (slotNames (split s sig)).Nodup ↔ (sig.params.map (·.name)).Nodup := by
  have hcombine : "combine" ∉ (sig.params.map (·.name)).map ("param:" ++ ·) := by
    intro hmem
    obtain ⟨name, _, heq⟩ := List.mem_map.mp hmem
    exact append_ne_append "param:" "combine" (by decide) name "" heq
  rw [slots_split, ← List.concat_eq_append, List.nodup_concat, nodup_map_append]
  exact and_iff_right hcombine

theorem Parameters.nodup_slots_iff (s : Specification) :
    (slotNames (decompose s)).Nodup ↔ Signature.Apart s.typeSignature := by
  rw [← Signature.nodup_names_iff_apart]
  unfold decompose
  split
  · rename_i sig hsig
    have hone : (∀ sig', Signature.parse? s.typeSignature = some sig' →
        (sig'.params.map (·.name)).Nodup) ↔ (sig.params.map (·.name)).Nodup := by
      simp [hsig]
    rw [hone]
    split
    · rename_i hfew
      refine iff_of_true List.nodup_nil ?_
      generalize sig.params = params at hfew ⊢
      rcases params with _ | ⟨p, _ | ⟨q, rest⟩⟩
      · exact List.nodup_nil
      · exact List.nodup_singleton _
      · rw [List.length_cons, List.length_cons] at hfew
        omega
    · exact nodup_slots_split s sig
  · rename_i hnone
    refine iff_of_true List.nodup_nil fun sig hsig => ?_
    rw [hnone] at hsig
    cases hsig

/-- The slot of the part for a trait. -/
def Clusters.Trait.slot : Clusters.Trait → String
  | .category c => c.name
  | .operation op => "op:" ++ op

theorem Clusters.Trait.slot_injective : Function.Injective Clusters.Trait.slot := by
  have hcategory : ∀ (c : Category) (op : String), c.name ≠ "op:" ++ op := by
    intro c op heq
    refine append_ne_append c.name "op:" ?_ "" op (by rw [String.append_empty, heq])
    cases c <;> decide
  intro x y hxy
  cases x with
  | category c =>
    cases y with
    | category d =>
      have hname : c.name = d.name := hxy
      congr 1
      revert hname
      cases c <;> cases d <;> decide
    | operation op => exact absurd hxy (hcategory c op)
  | operation op =>
    cases y with
    | category c => exact absurd hxy.symm (hcategory c op)
    | operation op' => rw [(String.append_right_inj _).mp hxy]

theorem Clusters.Trait.slot_ne_empty (x : Clusters.Trait) : x.slot ≠ "" := by
  cases x with
  | category c => cases c <;> decide
  | operation op => exact ne_empty_of_lead (by decide) op

theorem Clusters.slot_partOf (s : Specification) (x : Clusters.Trait) (i : Nat) :
    (partOf s x i).slot = x.slot := by
  cases x with
  | category c => rfl
  | operation op => rfl

theorem Clusters.nodup_traits (s : Specification) : (traits s).Nodup := by
  refine (pairwise_traits s).imp fun {x y} hxy heq => ?_
  subst heq
  cases x with
  | category c => exact Nat.lt_irrefl _ hxy
  | operation op => exact Nat.lt_irrefl _ hxy

theorem Clusters.nodup_slots (s : Specification) : (slotNames (decompose s)).Nodup := by
  rw [decompose_eq]
  split
  · exact List.nodup_nil
  · have hslots : ((traits s).zipIdx.map fun x => partOf s x.1 x.2).map (·.slot) =
        (traits s).map Trait.slot := by
      rw [List.map_map]
      exact map_zipIdx (slot_partOf s) (traits s)
    rw [slotNames_eq_map, hslots]
    · exact (nodup_traits s).map Trait.slot_injective
    · intro p hp
      obtain ⟨x, _, rfl⟩ := List.mem_map.mp hp
      rw [slot_partOf]
      exact x.1.slot_ne_empty

theorem Stages.slots_parts (s : Specification) (ss ops : List Stages.Step) :
    slotNames (parts s ss ops) =
      (ss.map (·.name)).map ("stage:" ++ ·) ++ (ops.map (·.name)).map ("op:" ++ ·) := by
  rw [slotNames_eq_map, parts, List.map_append, List.map_map, List.map_map, List.map_map,
    List.map_map]
  · congr 1
    · exact map_zipIdx (fun _ _ => rfl) ss
    · exact map_zipIdx (fun _ _ => rfl) ops
  · intro p hp
    rcases List.mem_append.mp hp with hp | hp
    · obtain ⟨x, _, rfl⟩ := List.mem_map.mp hp
      exact ne_empty_of_lead (by decide) _
    · obtain ⟨x, _, rfl⟩ := List.mem_map.mp hp
      exact ne_empty_of_lead (by decide) _

theorem Stages.nodup_recognised {steps : List Stages.Step} (h : (steps.map (·.name)).Nodup)
    (words : List String) : ((recognised steps words).map (·.name)).Nodup :=
  h.sublist (List.filter_sublist.map _)

theorem Stages.nodup_slots (s : Specification) : (slotNames (decompose s)).Nodup := by
  rw [decompose_eq]
  split
  · exact List.nodup_nil
  · rw [slots_parts, List.nodup_append, nodup_map_append, nodup_map_append]
    refine ⟨nodup_recognised (by decide) _, nodup_recognised (by decide) _, ?_⟩
    intro a ha b hb
    obtain ⟨x, _, rfl⟩ := List.mem_map.mp ha
    obtain ⟨y, _, rfl⟩ := List.mem_map.mp hb
    exact append_ne_append "stage:" "op:" (by decide) x y

/-- The slots of a built-in decomposition are different, except for parameters that the signature
does not keep apart. -/
theorem nodup_slots_of_builtin {strategy : Strategy} {s : Specification} {c : Context}
    {subs : List Subproblem} (hbuiltin : strategy ∈ builtin)
    (hsubs : strategy.decompose s c = .ok subs) :
    (slotNames subs).Nodup ↔
      (strategy.name = parameters.name → Signature.Apart s.typeSignature) := by
  simp only [builtin, List.mem_cons, List.not_mem_nil, or_false] at hbuiltin
  rcases hbuiltin with rfl | rfl | rfl | rfl
  · obtain rfl : Parameters.decompose s = subs := Except.ok.inj hsubs
    rw [Parameters.nodup_slots_iff]
    exact ⟨fun h _ => h, fun h => h rfl⟩
  · obtain rfl : Clusters.decompose s = subs := Except.ok.inj hsubs
    exact iff_of_true (Clusters.nodup_slots s) fun h => absurd h (by decide)
  · obtain rfl : Stages.decompose s = subs := Except.ok.inj hsubs
    exact iff_of_true (Stages.nodup_slots s) fun h => absurd h (by decide)
  · obtain rfl : [] = subs := Except.ok.inj hsubs
    exact iff_of_true List.nodup_nil fun h => absurd h (by decide)

/-- Solved parts of a built-in strategy are composed just when their slots are different. They are,
except where parameters are split and the signature gives a name that another parameter has. -/
theorem builtin_composes_iff_apart {strategy : Strategy} (hbuiltin : strategy ∈ builtin)
    (s : Specification) (c : Context) :
    ∃ subs, strategy.decompose s c = .ok subs ∧
      (∀ choice : Nat → Artifact,
        (∃ a, (Composer.select subs).compose (solvedBy subs choice) s = .ok a) ↔
          (slotNames subs).Nodup) ∧
      ((slotNames subs).Nodup ↔
        (strategy.name = parameters.name → Signature.Apart s.typeSignature)) := by
  obtain ⟨subs, hsubs, hline, _⟩ := exists_inLine_of_builtin hbuiltin s c
  exact ⟨subs, hsubs, fun choice => (Composer.select subs).compose_solvedBy_iff hline choice s,
    nodup_slots_of_builtin hbuiltin hsubs⟩

/-- A given name made of the place of a blank, between nameless parameters. -/
def gaps : Specification :=
  { description := "root", typeSignature := "(str, , arg1: int, int) -> bool" }

theorem builtin_composes_iff_apart_gaps :
    parameters ∈ builtin ∧ ∃ subs, parameters.decompose gaps {} = .ok subs ∧
      subs.map (·.slot) = ["param:arg0", "param:arg1", "param:arg3", "combine"] ∧
      ∀ choice : Nat → Artifact,
        ∃ a, (Composer.select subs).compose (solvedBy subs choice) gaps = .ok a := by
  have hbuiltin : parameters ∈ builtin := by simp [builtin]
  have happart : Signature.Apart gaps.typeSignature := by
    intro inner hinner
    have htext : Signature.parameterText? gaps.typeSignature =
        some "str, , arg1: int, int".toList := by
      decide +kernel
    rw [htext, Option.some.injEq] at hinner
    rw [← hinner]
    decide +kernel
  have hslots : (Parameters.decompose gaps).map (·.slot) =
      ["param:arg0", "param:arg1", "param:arg3", "combine"] := by
    decide +kernel
  obtain ⟨subs, hsubs, hcomposes, hnodup⟩ := builtin_composes_iff_apart hbuiltin gaps {}
  obtain rfl : Parameters.decompose gaps = subs := Except.ok.inj hsubs
  exact ⟨hbuiltin, _, hsubs, hslots, fun choice =>
    (hcomposes choice).mpr (hnodup.mpr fun _ => happart)⟩

/-- A name that is also made of the place of the nameless parameter behind it. -/
def borrowed : Specification :=
  { description := "root", typeSignature := "(arg1: int, str) -> bool" }

theorem borrowed_never_composes :
    parameters ∈ builtin ∧ ∃ subs, parameters.decompose borrowed {} = .ok subs ∧
      slotNames subs = ["param:arg1", "param:arg1", "combine"] ∧
      ∀ (choice : Nat → Artifact) (a : Artifact),
        (Composer.select subs).compose (solvedBy subs choice) borrowed ≠ .ok a := by
  have hslots : slotNames (Parameters.decompose borrowed) =
      ["param:arg1", "param:arg1", "combine"] := by
    decide +kernel
  refine ⟨by simp [builtin], Parameters.decompose borrowed, rfl, hslots, ?_⟩
  intro choice a ha
  have hnodup := Composer.nodup_of_compose ha
  rw [hslots] at hnodup
  exact absurd hnodup (by decide)

end Strategy

end Synthesis
