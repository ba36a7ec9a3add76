/-!
# Tables

Finite maps as rows of a key and a value.  The order of the rows is the order in which their keys
came first, so that going through a table has a fixed order.

## Main definitions

* `Table κ ν` — rows.
* `Table.insert`, `Table.erase`, `Table.get?` — one row per key, written, removed, and read.

## Main results

* `Table.get?_insert`, `Table.get?_erase` — what is read after a change.
-/

namespace SmtCount

/-- A finite map from `κ` to `ν`. -/
structure Table (κ ν : Type) where
  /-- The rows, oldest key first. -/
  rows : List (κ × ν) := []
  deriving Repr, Inhabited, DecidableEq

namespace Table

variable {κ ν : Type}

/-- The table without rows. -/
def empty : Table κ ν := {}

def isEmpty (t : Table κ ν) : Bool := t.rows.isEmpty

def size (t : Table κ ν) : Nat := t.rows.length

def keys (t : Table κ ν) : List κ := t.rows.map Prod.fst

def values (t : Table κ ν) : List ν := t.rows.map Prod.snd

section Keyed

variable [DecidableEq κ]

/-- The value of the first row of a key among some rows. -/
def lookup (k : κ) : List (κ × ν) → Option ν
  | [] => none
  | (k', v) :: rest => if k' = k then some v else lookup k rest

/-- Writes a value into the row of a key, which is a new last row if there is none. -/
def write (k : κ) (v : ν) : List (κ × ν) → List (κ × ν)
  | [] => [(k, v)]
  | (k', v') :: rest => if k' = k then (k, v) :: rest else (k', v') :: write k v rest

/-- The value of a key. -/
def get? (t : Table κ ν) (k : κ) : Option ν :=
  lookup k t.rows

def contains (t : Table κ ν) (k : κ) : Bool :=
  (t.get? k).isSome

/-- The table with `v` as the value of `k`. -/
def insert (t : Table κ ν) (k : κ) (v : ν) : Table κ ν :=
  ⟨write k v t.rows⟩

/-- The table without `k`. -/
def erase (t : Table κ ν) (k : κ) : Table κ ν :=
  ⟨t.rows.filter fun r => r.1 ≠ k⟩

/-- The table of some rows; of two rows with one key the later counts. -/
def ofRows (rows : List (κ × ν)) : Table κ ν :=
  rows.foldl (fun t r => t.insert r.1 r.2) empty

@[simp] theorem get?_empty (k : κ) : (empty : Table κ ν).get? k = none := rfl

theorem lookup_write (k k' : κ) (v : ν) (rows : List (κ × ν)) :
    lookup k' (write k v rows) = if k = k' then some v else lookup k' rows := by
  induction rows with
  | nil => rfl
  | cons r rest ih => grind [lookup, write]

/-- After writing `k`, it has the new value and every other key has its old one. -/
@[simp] theorem get?_insert (t : Table κ ν) (k k' : κ) (v : ν) :
    (t.insert k v).get? k' = if k = k' then some v else t.get? k' :=
  lookup_write k k' v t.rows

/-- After removing `k`, it has no value and every other key has its old one. -/
@[simp] theorem get?_erase (t : Table κ ν) (k k' : κ) :
    (t.erase k).get? k' = if k = k' then none else t.get? k' := by
  obtain ⟨rows⟩ := t
  simp only [get?, erase]
  induction rows with
  | nil => simp [lookup]
  | cons r rest ih => grind [lookup]

end Keyed

end Table

end SmtCount
