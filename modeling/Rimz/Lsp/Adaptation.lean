import Rimz.Lib.Json

/-!
# Replies and requests in an editor's own terms

`lsp/broker/adaptation.rs`: a reply of the shared server is cut down to what the editor said it
understands (links to locations, snippets to plain text), and the URIs of a frame are spelled as
the other side knows them.
-/

namespace Rimz.Lsp.Adaptation
open Rimz.Lib

/-- A location link becomes a location. -/
def location (link : Value) : Value :=
  match link.get? "targetUri" with
  | some uri => .object [("range", link.index "targetSelectionRange"), ("uri", uri)]
  | none => link

/-- A character of a tab stop's number or of a variable's name. -/
def isNameChar (numeric : Bool) (ch : Char) : Bool :=
  ch.isDigit || (!numeric && (ch.isAlpha || ch == '_'))

/-- The first alternative of a choice, and what follows the choice. -/
def choice : Bool → List Char → List Char × List Char
  | _, [] => ([], [])
  | _, '|' :: '}' :: rest => ([], rest)
  | _, ',' :: rest => choice false rest
  | first, '\\' :: ',' :: rest =>
    let r := choice first rest
    (if first then ',' :: r.1 else r.1, r.2)
  | first, '\\' :: '|' :: rest =>
    let r := choice first rest
    (if first then '|' :: r.1 else r.1, r.2)
  | first, '\\' :: '\\' :: rest =>
    let r := choice first rest
    (if first then '\\' :: r.1 else r.1, r.2)
  | first, ch :: rest =>
    let r := choice first rest
    (if first then ch :: r.1 else r.1, r.2)

/-- What follows a transform, whose open braces are counted. -/
def transform : Nat → List Char → List Char
  | _, [] => []
  | _, ['\\'] => []
  | braces, '\\' :: _ :: rest => transform braces rest
  | braces, '{' :: rest => transform (braces + 1) rest
  | braces, '}' :: rest => if braces = 1 then rest else transform (braces - 1) rest
  | braces, _ :: rest => transform braces rest

/-- The loop of `plain`; `defaults` counts the placeholders still open. Each round takes at least
one character, so the length of the text is fuel enough. -/
def plainFrom : Nat → Nat → List Char → List Char
  | 0, _, _ => []
  | _ + 1, _, [] => []
  | fuel + 1, defaults, ch :: rest =>
    if ch = '\\' ∧ (rest.head? = some '$' ∨ rest.head? = some '\x7d' ∨ rest.head? = some '\\') then
      rest.take 1 ++ plainFrom fuel defaults (rest.drop 1)
    else if ch = '\x7d' ∧ 0 < defaults then plainFrom fuel (defaults - 1) rest
    else if ch = '$' then
      let braced := rest.head? = some '\x7b'
      let rest := if braced then rest.drop 1 else rest
      let numeric := rest.head?.any Char.isDigit
      let identifier := rest.takeWhile (isNameChar numeric)
      let rest := rest.dropWhile (isNameChar numeric)
      if identifier = [] then
        '$' :: ((if braced then ['\x7b'] else []) ++ plainFrom fuel defaults rest)
      else if ¬ braced then plainFrom fuel defaults rest
      else
        match rest with
        | ':' :: rest => plainFrom fuel (defaults + 1) rest
        | '|' :: rest =>
          let r := choice true rest
          r.1 ++ plainFrom fuel defaults r.2
        -- Transforms have no value in a plain-text insertion.
        | '/' :: rest => plainFrom fuel defaults (transform 1 rest)
        | _ :: rest => plainFrom fuel defaults rest
        | [] => []
    else ch :: plainFrom fuel defaults rest

/-- A snippet as the text it inserts. -/
def plain : Value → Value
  | .string text => .string (String.ofList (plainFrom text.toList.length 0 text.toList))
  | value => value

/-- A field edited only where it is there. -/
def editField (value : Value) (k : String) (f : Value → Value) : Value :=
  match value.get? k with
  | some field => value.set k (f field)
  | none => value

/-- A completion item without snippets. -/
def completion (item : Value) : Value :=
  if item.index "insertTextFormat" ≠ .int 2 then item
  else
    let item := editField item "insertText" plain
    let item := editField item "textEdit" fun edit => editField edit "newText" plain
    item.set "insertTextFormat" (.int 1)

/-- An object whose `newText` is a snippet gets it as plain text. -/
def snippetEdit (object : Value) : Value :=
  match object.get? "insertTextFormat", object.get? "newText" with
  | some format, some (.string text) =>
    if format = .int 2 then (object.set "newText" (plain (.string text))).remove "insertTextFormat"
    else object
  | _, _ => object

-- The edit of an object reads and writes leaves only, so that it commutes with the descent.
mutual

/-- Every snippet edit inside a value as plain text. -/
def snippetEdits : Value → Value
  | .object fields => snippetEdit (.object (snippetEditsFields fields))
  | .array items => .array (snippetEditsItems items)
  | value => value

def snippetEditsItems : List Value → List Value
  | [] => []
  | item :: items => snippetEdits item :: snippetEditsItems items

def snippetEditsFields : List (String × Value) → List (String × Value)
  | [] => []
  | (k, child) :: fields => (k, snippetEdits child) :: snippetEditsFields fields

end

/-- The capability that says whether the editor takes links in a reply to this method. -/
def linkCapability (method : String) : Option String :=
  if method = "experimental/parentModule" ∨ method = "experimental/childModules" then
    some "definition"
  else
    ["definition", "typeDefinition", "implementation", "declaration"].find? fun name =>
      method = "textDocument/" ++ name

/-- A result in the shape the editor's capabilities ask for. -/
def reply (value : Value) (method : String) (capabilities : Value) : Value :=
  let text := capabilities.index "textDocument"
  let value :=
    match linkCapability method with
    | some name =>
      if ((text.index name).index "linkSupport") ≠ .bool true then
        match value with
        | .array locations => .array (locations.map location)
        | value => location value
      else value
    | none => value
  let value :=
    if ((text.index "completion").index "completionItem").index "snippetSupport" ≠ .bool true then
      if method = "textDocument/completion" then
        match value with
        | .array items => .array (items.map completion)
        | value => editField value "items" fun
          | .array items => .array (items.map completion)
          | items => items
      else if method = "completionItem/resolve" then completion value
      else value
    else value
  if (capabilities.index "experimental").index "snippetTextEdit" ≠ .bool true then
    snippetEdits value
  else value

mutual

/-- The URIs of a value that stands in the field `key`, spelled by `map`. The keys of `changes` are
URIs themselves, and are spelled before their values are descended into. -/
def urisUnder (map : String → Option String) (key : String) : Value → Value
  | .string s =>
    if key = "uri" ∨ key = "targetUri" then .string ((map s).getD s) else .string s
  | .array items => .array (urisItems map items)
  | .object fields =>
    if key = "changes" then .object (Value.collect (urisFields map (fun k => (map k).getD k) fields))
    else .object (urisFields map id fields)
  | value => value

def urisItems (map : String → Option String) : List Value → List Value
  | [] => []
  | item :: items => urisUnder map "" item :: urisItems map items

def urisFields (map : String → Option String) (spell : String → String) :
    List (String × Value) → List (String × Value)
  | [] => []
  | (k, child) :: fields => (spell k, urisUnder map (spell k) child) :: urisFields map spell fields

end

/-- The URIs of a frame, spelled by `map` where it knows one. -/
def uris (map : String → Option String) (value : Value) : Value :=
  urisUnder map "" value

section
variable (map : String → Option String)
include map

lemma lookup_urisFields (k : String) (fields : List (String × Value)) :
    Value.lookup k (urisFields map id fields) = (Value.lookup k fields).map (urisUnder map k) := by
  induction fields with
  | nil => simp [urisFields, Value.lookup]
  | cons field fields ih =>
    obtain ⟨l, child⟩ := field
    simp only [urisFields, Value.lookup, ih, id]
    by_cases h : l = k
    · subst h
      simp
    · simp [h]

lemma get?_uris {frame k} : (uris map frame).get? k = (frame.get? k).map (urisUnder map k) := by
  cases frame with
  | object fields =>
    exact lookup_urisFields map k fields
  | _ => simp [uris, urisUnder, Value.get?]

lemma isObject_uris (frame : Value) : (uris map frame).isObject = frame.isObject := by
  cases frame <;> simp [uris, urisUnder, Value.isObject]

end

end Rimz.Lsp.Adaptation
