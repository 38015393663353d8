import BearerCredentials.Json.Lexeme

/-!
# Outlines

The nesting of a JSON text, before it is decided what the text is read as. An outline holds the numerals and
strings as they are spelled and the members of objects in the order of the text, repeated names and all. A
text that goes wrong somewhere has an outline too: it ends at that place, which is therefore on the right edge.

* `Outline.ofText`: the outline of a text, and whether something follows it.
* `Place`: a place in a text, with all that encloses it; `Place.run` moves it over the lexemes.
-/

namespace BearerCredentials.Json

/-- the nesting of a JSON text -/
inductive Outline where
  | null
  | bool (value : Bool)
  | number (value : Numeral)
  | text (value : Spelled)
  /-- the items, and what is wrong after the last one -/
  | array (items : List Outline) (tear : Option Fault)
  /-- the members, and what is wrong after the last one -/
  | object (members : List (Spelled × Outline)) (tear : Option Fault)
  /-- no value, with the fault for a reader and for one who skips it -/
  | broken (reading skipping : Fault)

namespace Outline

/-- what encloses a place in a text: arrays and objects with their finished parts, the last one first -/
inductive Context where
  | root
  | item (before : List Outline) (outer : Context)
  | member (before : List (Spelled × Outline)) (name : Spelled) (outer : Context)

def Context.close : Context → Outline → Outline
  | .root, o => o
  | .item before outer, o => outer.close (.array (o :: before).reverse none)
  | .member before key outer, o => outer.close (.object ((key, o) :: before).reverse none)

/-- a place in a text -/
inductive Place where
  /-- a value has to come -/
  | value (context : Context)
  /-- an array has been opened -/
  | firstItem (context : Context)
  /-- an object has been opened -/
  | firstName (context : Context)
  /-- the name of a member has to come -/
  | name (before : List (Spelled × Outline)) (context : Context)
  /-- the colon after a name has to come -/
  | colon (before : List (Spelled × Outline)) (name : Spelled) (context : Context)
  /-- a value has been read -/
  | after (value : Outline) (context : Context)

/-- the outline of a text, and whether there is more text after it -/
structure Document where
  root : Outline
  trailing : Bool := false

/-- the outline of a text that goes wrong at a place -/
def Place.fail (fault : Fault) : Place → Document
  | .value c => ⟨c.close (.broken fault fault), false⟩
  | .firstItem c => ⟨c.close (.array [] (some fault)), false⟩
  | .firstName c => ⟨c.close (.object [] (some fault)), false⟩
  | .name before c => ⟨c.close (.object before.reverse (some fault)), false⟩
  | .colon before key c =>
    ⟨c.close (.object ((key, .broken fault fault) :: before).reverse none), false⟩
  | .after v .root => ⟨v, true⟩
  | .after v (.item before outer) => ⟨outer.close (.array (v :: before).reverse (some fault)), false⟩
  | .after v (.member before key outer) =>
    ⟨outer.close (.object ((key, v) :: before).reverse (some fault)), false⟩

/-- the outline of a text that ends at a place -/
def Place.finish : Place → Document
  | .after v .root => ⟨v, false⟩
  | p => p.fail .unfinished

/-- the place after a lexeme that stands where a value has to come -/
def Context.value? (c : Context) : Lexeme → Option Place
  | .openArray => some (.firstItem c)
  | .openObject => some (.firstName c)
  | .null => some (.after .null c)
  | .bool b => some (.after (.bool b) c)
  | .number n => some (.after (.number n) c)
  | .text s => some (.after (.text s) c)
  | .unreadable reading skipping => some (.after (.broken reading skipping) c)
  | .closeArray | .closeObject | .comma | .colon => none

/-- the place after a lexeme that stands where the name of a member has to come -/
def Context.name? (c : Context) (before : List (Spelled × Outline)) : Lexeme → Option Place
  | .text s => some (.colon before s c)
  | _ => none

/-- the place after a lexeme, if the lexeme may stand there -/
def Place.step? : Place → Lexeme → Option Place
  | .value c, l => c.value? l
  | .firstItem c, .closeArray => some (.after (.array [] none) c)
  | .firstItem c, l => (Context.item [] c).value? l
  | .firstName c, .closeObject => some (.after (.object [] none) c)
  | .firstName c, l => c.name? [] l
  | .name before c, l => c.name? before l
  | .colon before key c, .colon => some (.value (.member before key c))
  | .colon .., _ => none
  | .after v (.item before c), .comma => some (.value (.item (v :: before) c))
  | .after v (.item before c), .closeArray => some (.after (.array (v :: before).reverse none) c)
  | .after v (.member before key c), .comma => some (.name ((key, v) :: before) c)
  | .after v (.member before key c), .closeObject =>
    some (.after (.object ((key, v) :: before).reverse none) c)
  | .after .., _ => none

def Place.run : Place → List Lexeme → Document
  | p, [] => p.finish
  | p, l :: rest =>
    match p.step? l with
    | some p => p.run rest
    | none => p.fail .malformed

def ofText (s : String) : Document :=
  (Place.value .root).run (Lexeme.scan s.toList)

end Outline

end BearerCredentials.Json
