import PlatformRoutes.Record.Fields

namespace PlatformRoutes

/-- One page of a listing. Pages are counted from one. -/
structure Page (α : Type) where
  items : List α
  page : Int
  totalPages : Int

namespace Page

def hasNext (p : Page α) : Bool := p.page < p.totalPages

/-- A page's number is at least one and the total at least zero. -/
def of (items : List α) (page totalPages : Int) : Checked (Page α) :=
  (fun page total => ⟨items, page, total⟩)
    <$> (Checked.atLeast 1 page).under (.field "page")
    <*> (Checked.atLeast 0 totalPages).under (.field "total_pages")

def anyItems (v : Json) : Checked (List Json) :=
  match v with
  | .list items => .ok items
  | _ => .fault .notList

def ofFields (fields : Json.Fields) : Checked (Page Json) :=
  (fun items page total (_ : Unit) => ⟨items, page, total⟩)
    <$> fields.optional "items" [] anyItems
    <*> fields.optional "page" 1 (fun v => (Json.Fields.int v).andThen (.atLeast 1))
    <*> fields.optional "total_pages" 1 (fun v => (Json.Fields.int v).andThen (.atLeast 0))
    <*> fields.noOthers ["items", "page", "total_pages"]

end Page

end PlatformRoutes
