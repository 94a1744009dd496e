import ActiveRow.Collection

/-!
# Pages

One page of a longer result. Positions count from one; an empty page has none. Counts that would
exceed the largest one stay there.
-/

namespace ActiveRow

structure Page where
  data : Collection
  total : UInt64
  perPage : UInt64
  number : UInt64
  last : UInt64
  /-- The position of the first record, zero for an empty page. -/
  start : UInt64
  /-- The position of the last record, zero for an empty page. -/
  stop : UInt64

namespace Page

/-- The number of the last page. -/
def lastPage (total perPage : UInt64) : UInt64 :=
  if perPage = 0 then 0
  else UInt64.ofNat ((total.toNat + perPage.toNat - 1) / perPage.toNat)

/-- The position of the first row of a page. -/
def startOf (perPage number : UInt64) : UInt64 :=
  let before := min ((number.toNat - 1) * perPage.toNat) Word.maxCount
  Word.saturate (before + 1)

/-- The page of this number, with these records on it. -/
def ofData (data : Collection) (total perPage number : UInt64) : Page :=
  let start := startOf perPage number
  { data, total, perPage, number, last := lastPage total perPage
    start := if data.isEmpty then 0 else start
    stop := if data.isEmpty then 0 else Word.saturate (start.toNat + (data.size - 1)) }

def hasMorePages (p : Page) : Bool := p.number < p.last

def onFirstPage (p : Page) : Bool := p.number ≤ 1

def isEmpty (p : Page) : Bool := p.data.isEmpty

/-- The members of the document of a page around the document of its data. -/
def fields (p : Page) (data : Json) : List (String × Json) :=
  let count (n : UInt64) : Json := .integer n.toNat
  [("data", data), ("total", count p.total), ("per_page", count p.perPage),
    ("current_page", count p.number), ("last_page", count p.last), ("from", count p.start),
    ("to", count p.stop)]

def json (p : Page) : Json := .object (Json.sortFields (p.fields p.data.json))

/-- The document of the page, members in their own order. -/
def document (p : Page) : Json := .object (p.fields p.data.document)

end Page

end ActiveRow
