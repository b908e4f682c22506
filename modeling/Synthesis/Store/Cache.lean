import Synthesis.Table
import Synthesis.Decimal.Binary

/-!
A cache whose entries expire. Entering a new name into a full cache first removes every expired
entry and, if that frees no room, the least recently used quarter and one more. Times are
nanoseconds on a clock that may move in both directions; an age is a difference of two times,
kept inside the signed sixty-four bit range.
-/
namespace Synthesis

structure CacheEntry (α : Type) where
  value : α
  createdAt : Int
  lastAccessed : Int
  hitCount : Nat := 0
  /-- Nanoseconds; zero or less means that the entry never expires. -/
  lifetime : Int
  /-- The number of the entry among all entered so far. -/
  serial : Nat

namespace CacheEntry

variable {α : Type}

def age (e : CacheEntry α) (now : Int) : Int := Decimal.clamp64 (now - e.createdAt)

def isExpired (e : CacheEntry α) (now : Int) : Bool := 0 < e.lifetime && e.lifetime < e.age now

def access (e : CacheEntry α) (now : Int) : CacheEntry α :=
  { e with hitCount := e.hitCount + 1, lastAccessed := now }

/-- Last accessed earlier, and entered earlier among those accessed at the same time. -/
def isOlder (a b : CacheEntry α) : Bool :=
  a.lastAccessed < b.lastAccessed || (a.lastAccessed == b.lastAccessed && a.serial ≤ b.serial)

end CacheEntry

structure Cache (α : Type) where
  capacity : Nat
  lifetime : Int
  entries : Table (CacheEntry α) := {}
  serial : Nat := 0
  hits : Nat := 0
  misses : Nat := 0
  evictions : Nat := 0

namespace Cache

variable {α : Type}

def defaultCapacity : Nat := 1000

/-- An empty cache; a capacity below one means the default one. -/
def new (capacity lifetime : Int) : Cache α :=
  { capacity := if capacity ≤ 0 then defaultCapacity else capacity.toNat, lifetime }

def size (c : Cache α) : Nat := c.entries.size

/-- Looks up a name: a hit notes the access, an expired entry is removed and is a miss. -/
def get (c : Cache α) (now : Int) (name : String) : Option α × Cache α :=
  match c.entries.get? name with
  | none => (none, { c with misses := c.misses + 1 })
  | some e =>
    if e.isExpired now then
      (none, { c with entries := c.entries.erase name, misses := c.misses + 1 })
    else
      (some e.value, { c with entries := c.entries.insert name (e.access now), hits := c.hits + 1 })

def purged (entries : Table (CacheEntry α)) (now : Int) : Table (CacheEntry α) :=
  entries.filter fun x => !x.2.isExpired now

/-- The names of the least recently used quarter and one more. -/
def victims (entries : Table (CacheEntry α)) : List String :=
  let sorted := entries.entries.mergeSort fun a b => a.2.isOlder b.2
  (sorted.take (entries.size / 4 + 1)).map (·.1)

def without (entries : Table (CacheEntry α)) (names : List String) : Table (CacheEntry α) :=
  entries.filter fun x => !names.contains x.1

/-- Removes expired entries and, if the cache is still full, the least recently used ones. -/
def sweep (c : Cache α) (now : Int) : Cache α :=
  let live := purged c.entries now
  let kept := if c.capacity ≤ live.size then without live (victims live) else live
  { c with entries := kept, evictions := c.evictions + (c.size - kept.size) }

def setFor (c : Cache α) (now : Int) (name : String) (value : α) (lifetime : Int) : Cache α :=
  let c := if !c.entries.contains name && c.capacity ≤ c.size then c.sweep now else c
  let serial := c.serial + 1
  { c with
    entries := c.entries.insert name
      { value, createdAt := now, lastAccessed := now, lifetime, serial }
    serial }

def set (c : Cache α) (now : Int) (name : String) (value : α) : Cache α :=
  c.setFor now name value c.lifetime

def erase (c : Cache α) (name : String) : Cache α := { c with entries := c.entries.erase name }

def clear (c : Cache α) : Cache α := { c with entries := {} }

def hitRate (c : Cache α) : Float :=
  let total := c.hits + c.misses
  if total = 0 then 0 else c.hits.toFloat / total.toFloat

end Cache

end Synthesis
