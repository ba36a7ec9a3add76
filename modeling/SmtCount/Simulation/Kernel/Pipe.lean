import SmtCount.Simulation.Text.Bytes

/-!
# Pipes

A pipe holds what has been written to it and not yet been read, in pages.  It has room for a number of
pages, so how much it can hold depends on how it was filled: what is written goes to the last page if
its odd part fits there, and to new pages otherwise.

## Main definitions

* `Pipe` — the pages of a pipe.
* `Pipe.pour` — writes as much as there is room for.
* `Pipe.draw` — reads what there is, up to a limit.
-/

namespace SmtCount.Simulation.Kernel

/-- A page of a pipe. -/
structure Page where
  /-- How many bytes of the page have been read. -/
  taken : Nat
  /-- What has not been read. -/
  bytes : Bytes

/-- What has been written and not yet been read, oldest page first. -/
structure Pipe where
  pages : List Page := []

namespace Pipe

/-- How many bytes fit on a page. -/
def pageSize : Nat := 4096

/-- How many pages a pipe may have. -/
def pageCount : Nat := 16

def isEmpty (p : Pipe) : Bool := p.pages.isEmpty

def isFull (p : Pipe) : Bool := pageCount ≤ p.pages.length

/-- Puts bytes on at most `count` new pages; gives what is left. -/
def paginate : Nat → Bytes → List Page × Bytes
  | 0, bs => ([], bs)
  | _ + 1, [] => ([], [])
  | count + 1, bs =>
    let (pages, rest) := paginate count (bs.drop pageSize)
    (⟨0, bs.take pageSize⟩ :: pages, rest)

/-- Puts the odd part of some bytes on the last page, if it fits there; gives what is left. -/
def topUp : List Page → Bytes → List Page × Bytes
  | [], bs => ([], bs)
  | [page], bs =>
    let odd := bs.length % pageSize
    if page.taken + page.bytes.length + odd ≤ pageSize then
      ([⟨page.taken, page.bytes ++ bs.take odd⟩], bs.drop odd)
    else ([page], bs)
  | page :: pages, bs =>
    let (pages, rest) := topUp pages bs
    (page :: pages, rest)

/-- Writes as much as there is room for; gives what is left. -/
def pour (p : Pipe) (bs : Bytes) : Pipe × Bytes :=
  let (old, rest) := topUp p.pages bs
  let (new, rest) := paginate (pageCount - old.length) rest
  (⟨old ++ new⟩, rest)

/-- Reads at most `limit` bytes from some pages. -/
def drawPages : List Page → Nat → Bytes × List Page
  | [], _ => ([], [])
  | page :: pages, limit =>
    match page.bytes.drop limit with
    | [] =>
      let (bs, rest) := drawPages pages (limit - page.bytes.length)
      (page.bytes ++ bs, rest)
    | left => (page.bytes.take limit, ⟨page.taken + limit, left⟩ :: pages)

/-- Reads at most `limit` bytes. -/
def draw (p : Pipe) (limit : Nat) : Bytes × Pipe :=
  let (bs, pages) := drawPages p.pages limit
  (bs, ⟨pages⟩)

end Pipe

end SmtCount.Simulation.Kernel
