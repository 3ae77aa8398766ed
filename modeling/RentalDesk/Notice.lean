import RentalDesk.Catalog.Reader

/-!
# Notices

What the program tells its operator while it opens a house. Rows of a catalog are counted from 1
behind the header.
-/

namespace RentalDesk

open Text

/-- Something that an operator is told. -/
inductive Notice where
  | memoryOnly
  | badRow (row : Nat) (cause : CatalogCause)
  | zeroRow (row : Nat)
  | catalogLoaded (path : String) (added : Nat)
deriving DecidableEq

namespace Notice

def line : Notice → String
  | .memoryOnly =>
    " WARN Persistent storage requested via --db-path, but 'storage-rocksdb' feature is not " ++
      "enabled. Falling back to in-memory storage."
  | .badRow row cause =>
    " WARN skipping bad catalog row row=" ++ natText row ++ " error=" ++
      (Error.catalog cause).message
  | .zeroRow row => " WARN skipping catalog row with id 0 row=" ++ natText row
  | .catalogLoaded path added =>
    " INFO catalog loaded path=" ++ path ++ " added=" ++ natText added

/-- The notices about the rows of a catalog, the first of which has the given number. -/
def ofRows (row : Nat) : List (Except CatalogCause Catalog.Entry) → List Notice
  | [] => []
  | .ok entry :: rows =>
    if entry.id = 0 then zeroRow row :: ofRows (row + 1) rows else ofRows (row + 1) rows
  | .error cause :: rows => badRow row cause :: ofRows (row + 1) rows

def ofCatalog (rows : List (Except CatalogCause Catalog.Entry)) : List Notice := ofRows 1 rows

end Notice

end RentalDesk
