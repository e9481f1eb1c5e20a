import LineAssist.Catalog.Reading
import LineAssist.Files

/-!
# Catalogs in files

A file that cannot be opened is an error of the catalog; one that is not text is not.
-/

namespace LineAssist.Catalog

/-- The catalog that a file describes. -/
def load (files : Files) (p : Path) : Except CatalogFault Catalog :=
  match files.readText p with
  | .ok t => parse t
  | .error .notUtf8 => .error .notUtf8
  | .error (.file .nullCharacter) => .error .nullCharacter
  | .error (.file (.system ..)) => .error (.catalog (.unreadable p.text))

end LineAssist.Catalog
