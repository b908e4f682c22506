import Synthesis.Engine.Solve

/-!
Calls one after the other. What a cache holds was entered into it, and of all a session remembers
only the caches, the choices and the experience pass from one call to the next; everything else,
the time and the history included, may have changed in between.
-/
namespace Synthesis

namespace Table

variable {α : Type}

theorem mem_of_mem_put {name : String} {value : α} {entries : List (String × α)}
    {x : String × α} (h : x ∈ put name value entries) : x = (name, value) ∨ x ∈ entries := by
  induction entries with
  | nil => exact Or.inl (List.mem_singleton.mp h)
  | cons y rest ih =>
    unfold put at h
    split at h
    · rename_i hname
      rcases List.mem_cons.mp h with rfl | h
      · exact Or.inl (by rw [hname])
      · exact Or.inr (List.mem_cons_of_mem _ h)
    · rcases List.mem_cons.mp h with rfl | h
      · exact Or.inr List.mem_cons_self
      · exact (ih h).imp_right (List.mem_cons_of_mem _)

theorem mem_of_find_eq_some {name : String} {value : α} {entries : List (String × α)}
    (h : find name entries = some value) : (name, value) ∈ entries := by
  induction entries with
  | nil => cases h
  | cons y rest ih =>
    unfold find at h
    split at h
    · rename_i hname
      cases h
      rw [← hname]
      exact List.mem_cons_self
    · exact List.mem_cons_of_mem _ (ih h)

end Table

namespace Cache

variable {α : Type} {c : Cache α} {P : String → α → Prop}

theorem get_of_live {now : Int} {name : String} {e : CacheEntry α}
    (hentry : c.entries.get? name = some e) (hlive : e.isExpired now = false) :
    c.get now name =
      (some e.value,
        { c with entries := c.entries.insert name (e.access now), hits := c.hits + 1 }) := by
  simp [Cache.get, hentry, hlive]

theorem live_of_get {now : Int} {name : String} {value : α}
    (h : (c.get now name).1 = some value) :
    ∃ e, c.entries.get? name = some e ∧ e.isExpired now = false ∧ e.value = value := by
  unfold Cache.get at h
  split at h
  · cases h
  · rename_i e hentry
    split at h
    · cases h
    · rename_i hlive
      exact ⟨e, hentry, Bool.eq_false_iff.mpr hlive, Option.some.inj h⟩

/-- Every entry is as `P` says. -/
def Holds (c : Cache α) (P : String → α → Prop) : Prop :=
  ∀ x ∈ c.entries.entries, P x.1 x.2.value

theorem Holds.imp {P' : String → α → Prop} (h : c.Holds P) (himp : ∀ k v, P k v → P' k v) :
    c.Holds P' :=
  fun x hx => himp _ _ (h x hx)

theorem Holds.get (h : c.Holds P) (now : Int) (name : String) : (c.get now name).2.Holds P := by
  unfold Cache.get
  split
  · exact h
  · rename_i e hget
    split
    · exact fun x hx => h x (List.mem_filter.mp hx).1
    · intro x hx
      rcases Table.mem_of_mem_put hx with rfl | hx
      · have hold : P name e.value := h (name, e) (Table.mem_of_find_eq_some hget)
        exact hold
      · exact h x hx

/-- What is found was entered under that name. -/
theorem Holds.of_get (h : c.Holds P) {now : Int} {name : String} {value : α}
    (hget : (c.get now name).1 = some value) : P name value := by
  obtain ⟨e, hentry, _, rfl⟩ := live_of_get hget
  exact h _ (Table.mem_of_find_eq_some hentry)

theorem Holds.sweep (h : c.Holds P) (now : Int) : (c.sweep now).Holds P := by
  unfold Cache.sweep
  intro x hx
  dsimp only at hx
  split at hx
  · exact h x (List.mem_filter.mp (List.mem_filter.mp hx).1).1
  · exact h x (List.mem_filter.mp hx).1

theorem Holds.set (h : c.Holds P) (now : Int) {name : String} {value : α} (hnew : P name value) :
    (c.set now name value).Holds P := by
  unfold Cache.set setFor
  intro x hx
  rcases Table.mem_of_mem_put hx with rfl | hx
  · exact hnew
  · split at hx
    · exact h.sweep now x hx
    · exact h x hx

/-- An entry that is left was there under another name. -/
theorem Holds.erase {P' : String → α → Prop} (h : c.Holds P) {name : String}
    (himp : ∀ k v, k ≠ name → P k v → P' k v) : (c.erase name).Holds P' := by
  intro x hx
  obtain ⟨hmem, hne⟩ := List.mem_filter.mp hx
  exact himp _ _ (bne_iff_ne.mp hne) (h x hmem)

theorem age_zero (e : CacheEntry α) : e.age e.createdAt = 0 := by
  rw [CacheEntry.age, Int.sub_self]
  decide

/-- What has just been entered is found. -/
theorem get_set (c : Cache α) (now : Int) (name : String) (value : α) :
    ((c.set now name value).get now name).1 = some value := by
  unfold Cache.set setFor
  dsimp only
  rw [get_of_live (by rw [Table.get?_insert, if_pos rfl])]
  unfold CacheEntry.isExpired
  rw [age_zero]
  simp only [Bool.and_eq_false_iff, decide_eq_false_iff_not]
  omega

/-- What has been found is found again. -/
theorem get_get {now : Int} {name : String} {value : α} (h : (c.get now name).1 = some value) :
    ((c.get now name).2.get now name).1 = some value := by
  obtain ⟨e, hentry, hlive, rfl⟩ := live_of_get h
  have haccessed : (c.entries.insert name (e.access now)).get? name = some (e.access now) := by
    rw [Table.get?_insert, if_pos rfl]
  have hstill : (e.access now).isExpired now = false := hlive
  rw [get_of_live hentry hlive, get_of_live haccessed hstill]
  rfl

end Cache

/-- A call of an engine, in the session before it, with what came of it. -/
structure Served (ω : Type) where
  engine : Engine ω
  specification : Specification
  context : Context
  before : Session ω
  result : Result
  after : Session ω

namespace Served

variable {ω : Type}

/-- The call of an engine in a session. -/
def of (e : Engine ω) (s : Specification) (c : Context) (σ : Session ω) : Served ω where
  engine := e
  specification := s
  context := c
  before := σ
  result := (e.synthesize s c σ).1
  after := (e.synthesize s c σ).2

/-- The key under which a solution is remembered. -/
def key (x : Served ω) : String := solutionKey x.specification x.context.contentKey

/-- The call is one of this engine, with a clock, a history and walks of its own, and remembers what
the session did. -/
structure Follows (e : Engine ω) (σ : Session ω) (x : Served ω) : Prop where
  engine : x.engine =
    { e with clock := x.engine.clock, history := x.engine.history, walks := x.engine.walks }
  solutions : x.before.solutions = σ.solutions
  strategies : x.before.strategies = σ.strategies
  results : x.before.results = σ.results
  experience : x.before.experience = σ.experience
  call : x.engine.synthesize x.specification x.context x.before = (x.result, x.after)

theorem of_follows (e : Engine ω) (s : Specification) (c : Context) {σ τ : Session ω}
    (hsolutions : τ.solutions = σ.solutions) (hstrategies : τ.strategies = σ.strategies)
    (hresults : τ.results = σ.results) (hexperience : τ.experience = σ.experience) :
    (of e s c τ).Follows e σ :=
  ⟨rfl, hsolutions, hstrategies, hresults, hexperience, (Prod.eta _).symm⟩

/-- A call in a row with one more at its end is that one, or one of the row. -/
theorem last_or_earlier {calls before after : List (Served ω)} {x y : Served ω}
    (h : calls ++ [x] = before ++ y :: after) :
    (before = calls ∧ y = x) ∨ ∃ between, calls = before ++ y :: between := by
  rcases List.eq_nil_or_concat after with rfl | ⟨between, z, rfl⟩
  · obtain ⟨hbefore, hlast⟩ := List.append_inj' h rfl
    exact Or.inl ⟨hbefore.symm, (List.cons.inj hlast).1.symm⟩
  · rw [List.concat_eq_append, ← List.cons_append, ← List.append_assoc] at h
    exact Or.inr ⟨between, (List.append_inj' h rfl).1⟩

end Served

/-- Calls one after the other, from a first session to the last. -/
inductive Serves {ω : Type} (e : Engine ω) (first : Session ω) :
    List (Served ω) → Session ω → Prop
  | nil : Serves e first [] first
  | snoc {calls : List (Served ω)} {σ : Session ω} (h : Serves e first calls σ) {x : Served ω}
      (hx : x.Follows e σ) : Serves e first (calls ++ [x]) x.after

/-- Two calls in a row, the second one with a caller who has not been stopped. -/
theorem serves_pair {ω : Type} (e : Engine ω) (first : Session ω) (s s' : Specification)
    (c c' : Context) :
    let x := Served.of e s c first
    let y := Served.of e s' c' { x.after with stopped := none }
    Serves e first [x, y] y.after := by
  intro x y
  have hfirst : Serves e first [x] x.after :=
    Serves.nil.snoc (Served.of_follows e s c rfl rfl rfl rfl)
  exact hfirst.snoc (Served.of_follows e s' c' rfl rfl rfl rfl)

end Synthesis
