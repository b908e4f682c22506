import Synthesis.Specification

/-!
Decompositions: lists of subproblems that depend on earlier ones by index. A decomposition is
well formed when every dependency points to an earlier subproblem and none is named twice. A
schedule is either one order of the subproblems or a list of waves, where the members of a wave
depend on earlier waves only.
-/
namespace Synthesis

structure Subproblem where
  specification : Specification := {}
  /-- Indices into the decomposition. -/
  dependencies : List Int := []
  priority : Int := 0
  slot : String := ""
  condition : String := ""
  deriving Inhabited

namespace Subproblem

/-- The name of the place the solution takes: the given one, or one made of the index. -/
def slotName (p : Subproblem) (index : Int) : String :=
  if p.slot = "" then "part-" ++ Decimal.intText index else p.slot

end Subproblem

/-- What is wrong with a dependency of the subproblem at `index`. -/
inductive DependencyFault where
  | outOfRange (index : Nat) (dependency : Int)
  | onItself (index : Nat)
  | onLater (index : Nat) (dependency : Int)
  | repeated (index : Nat) (dependency : Int)
  deriving Repr, DecidableEq

def DependencyFault.message : DependencyFault → String
  | .outOfRange i d =>
    "subproblem " ++ Decimal.natText i ++ " depends on out-of-range index " ++ Decimal.intText d
  | .onItself i => "subproblem " ++ Decimal.natText i ++ " depends on itself"
  | .onLater i d =>
    "subproblem " ++ Decimal.natText i ++ " depends on later index " ++ Decimal.intText d
      ++ " (cycle or forward reference)"
  | .repeated i d =>
    "subproblem " ++ Decimal.natText i ++ " lists dependency " ++ Decimal.intText d ++ " twice"

namespace Decomposition

/-- The first fault among the dependencies of the subproblem at index `i`, of `n` in all. -/
def dependencyFault? (n i : Nat) : List Int → List Int → Option DependencyFault
  | _, [] => none
  | seen, d :: rest =>
    if d < 0 ∨ (n : Int) ≤ d then some (.outOfRange i d)
    else if d = i then some (.onItself i)
    else if (i : Int) < d then some (.onLater i d)
    else if seen.contains d then some (.repeated i d)
    else dependencyFault? n i (d :: seen) rest

def faultFrom? (n i : Nat) : List Subproblem → Option DependencyFault
  | [] => none
  | p :: rest => (dependencyFault? n i [] p.dependencies).or (faultFrom? n (i + 1) rest)

/-- The first fault of a decomposition; a well-formed one has none. -/
def fault? (subs : List Subproblem) : Option DependencyFault := faultFrom? subs.length 0 subs

/-- Every dependency of `p` is listed in `done`. -/
def isReady (done : List Nat) (p : Subproblem) : Bool :=
  p.dependencies.all fun d => 0 ≤ d && done.contains d.toNat

/-- The least priority wins, and among equals the first. -/
def leastPriority : List (Nat × Subproblem) → Option Nat
  | [] => none
  | (i, p) :: rest => some (rest.foldl pick (i, p)).1
where
  pick (best next : Nat × Subproblem) : Nat × Subproblem :=
    if next.2.priority < best.2.priority then next else best

def indexed (subs : List Subproblem) : List (Nat × Subproblem) :=
  subs.zipIdx.map fun (p, i) => (i, p)

/-- The subproblem to solve next: not done, with all its dependencies done, and the least. -/
def next? (subs : List Subproblem) (done : List Nat) : Option Nat :=
  leastPriority ((indexed subs).filter fun (i, p) => !done.contains i && isReady done p)

def orderFrom (subs : List Subproblem) : Nat → List Nat → List Nat
  | 0, done => done
  | n + 1, done =>
    match next? subs done with
    | some i => orderFrom subs n (done ++ [i])
    | none => done

/-- The order in which subproblems are solved one by one; those that never become ready are
left out. -/
def executionOrder (subs : List Subproblem) : List Nat := orderFrom subs subs.length []

/-- A level above that of a dependency, if that is an earlier one. -/
def above (levels : List Nat) (l : Nat) (d : Int) : Nat :=
  if 0 ≤ d then match levels[d.toNat]? with
    | some m => max l (m + 1)
    | none => l
  else l

/-- The level of a subproblem, from the levels of those before it: one more than the highest
level among its dependencies on earlier ones. -/
def levelAfter (levels : List Nat) (p : Subproblem) : Nat :=
  p.dependencies.foldl (above levels) 0

def levels (subs : List Subproblem) : List Nat :=
  subs.foldl (fun ls p => ls ++ [levelAfter ls p]) []

/-- The members of a level, by priority and then by index. -/
def wave (subs : List Subproblem) (ls : List Nat) (l : Nat) : List Nat :=
  let members := ((indexed subs).zip ls).filterMap fun (m, k) => if k = l then some m else none
  (members.mergeSort fun a b => a.2.priority ≤ b.2.priority).map (·.1)

/-- The subproblems by level: each wave depends on earlier waves only. -/
def waves (subs : List Subproblem) : List (List Nat) :=
  let ls := levels subs
  let count := ls.foldl (fun n l => max n (l + 1)) 0
  (List.range count).map (wave subs ls)

end Decomposition

end Synthesis
