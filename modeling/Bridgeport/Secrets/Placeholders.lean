import Bridgeport.Foundation.TextScan

/-!
# Placeholder resolution

`resolveSecretPlaceholders` of `services/secrets.ts` resolves the `${KEY}` placeholders of a config
file against the vars and the secrets of an environment. It rewrites the whole text once per key,
first for every var and then for every secret.

An `Environment` lists both in the order in which the database returns them; its fields are the
unique keys and the key format that the routes check. The template stage that renders range blocks
before the substitution is a parameter, `renderTemplate`.

What the substitution is for is stated on the pieces of a text: `parse` splits a content into
literal characters and references, and `substitute` replaces every reference that has a value.
-/

namespace Bridgeport.Secrets

open Foundation

abbrev Text := List Char

instance : LawfulBEq Text := inferInstance

/-- The class `[A-Z]`. -/
def isKeyStart (character : Char) : Bool :=
  'A' ≤ character ∧ character ≤ 'Z'

/-- The class `[A-Z0-9_]`. -/
def isKeyChar (character : Char) : Bool :=
  isKeyStart character ∨ ('0' ≤ character ∧ character ≤ '9') ∨ character = '_'

/-- The key format `^[A-Z][A-Z0-9_]*$`. -/
def validKey (key : Text) : Bool :=
  key.head?.any isKeyStart && key.all isKeyChar

/-- The placeholder `${KEY}`. -/
def placeholder (key : Text) : Text :=
  '$' :: '{' :: key ++ ['}']

/-- The key of the placeholder at the front of a text, if there is one whose key begins with a
character of the given class. -/
def readPlaceholder (isStart : Char → Bool) : Text → Option Text
  | '$' :: '{' :: rest =>
    let key := rest.takeWhile isKeyChar
    if key.head?.any isStart ∧ (rest.drop key.length).head? = some '}' then some key else none
  | _ => none

/-- A var, or a secret with its decrypted value. -/
structure Entry where
  (key value : Text)

structure Environment where
  (vars secrets : List Entry)
  nodup_vars : (vars.map (·.key)).Nodup
  nodup_secrets : (secrets.map (·.key)).Nodup
  valid_vars : ∀ entry ∈ vars, validKey entry.key = true
  valid_secrets : ∀ entry ∈ secrets, validKey entry.key = true

theorem valid_nil : ∀ entry ∈ ([] : List Entry), validKey entry.key = true :=
  nofun

/-- One rewriting of the text, `replace(new RegExp('\\$\\{KEY\\}', 'g'), () => value)`. -/
def replaceEntry (text : Text) (entry : Entry) : Text :=
  replaceAll (placeholder entry.key) entry.value text

/-- The two substitution loops, vars first. -/
def replaceEntries (environment : Environment) (text : Text) : Text :=
  environment.secrets.foldl replaceEntry (environment.vars.foldl replaceEntry text)

/-- The keys of the placeholders `\$\{[A-Z_][A-Z0-9_]*\}` that a text contains, each once. -/
def missingKeys (text : Text) : List Text :=
  ((scan (fun text ↦ (readPlaceholder (fun character ↦ isKeyStart character || character == '_')
    text).map fun key ↦ (some key, key.length + 3)) (fun _ ↦ none) text).filterMap id).eraseDups

/-- The answer of `resolveSecretPlaceholders`. -/
structure Resolution where
  content : Text
  missing : List Text
  templateErrors : List String

def resolveSecretPlaceholders (renderTemplate : Text → Text × List String)
    (environment : Environment) (content : Text) : Resolution :=
  let (templateContent, templateErrors) := renderTemplate content
  let resolvedContent := replaceEntries environment templateContent
  ⟨resolvedContent, missingKeys resolvedContent, templateErrors⟩

/-- A piece of a content: a literal character, or a reference `${KEY}`. -/
inductive Piece
  | literal (character : Char)
  | reference (key : Text)
  deriving DecidableEq

def Piece.write : Piece → Text
  | .literal character => [character]
  | .reference key => placeholder key

def parse (content : Text) : List Piece :=
  scan (fun text ↦ (readPlaceholder isKeyStart text).map fun key ↦
    (Piece.reference key, key.length + 3)) Piece.literal content

def valueOf (entries : List Entry) (key : Text) : Option Text :=
  (entries.find? (·.key = key)).map (·.value)

/-- The simultaneous substitution: every reference of the content that has an entry is replaced by
its value, and nothing else changes. -/
def substitute (entries : List Entry) (content : Text) : Text :=
  (parse content).flatMap fun
    | .literal character => [character]
    | .reference key => (valueOf entries key).getD (placeholder key)

end Bridgeport.Secrets
