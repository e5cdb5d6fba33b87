/-
  CodeOutline/Languages/Registry.lean
  ===================================
  **The languages that are supported, and registries of their profiles.**

  A language is asked for by its name or an alias, in any case and with blanks around it, or it is
  found by the extension of a file.  A registry finds a profile in the same two ways.  Where several
  profiles have one name, or list one extension, the last of them is found.
-/
import CodeOutline.Rules.Capture
import CodeOutline.Text.FilePath
import CodeOutline.Text.Quoted

namespace CodeOutline

/-! ### Names and extensions -/

/-- Other names of languages. -/
def languageAliases : List (String × String) :=
  [("c#", "csharp"), ("c++", "cpp"), ("cs", "csharp"), ("golang", "go"), ("js", "javascript"),
    ("jsx", "javascript"), ("kt", "kotlin"), ("py", "python"), ("rb", "ruby"), ("rs", "rust"),
    ("sh", "bash"), ("shell", "bash"), ("ts", "typescript")]

/-- The extensions of source files.  A header is one of C unless its extension says C++. -/
def languageExtensions : List (String × String) :=
  [(".bash", "bash"), (".c", "c"), (".cc", "cpp"), (".cjs", "javascript"), (".cpp", "cpp"),
    (".cs", "csharp"), (".cts", "typescript"), (".cxx", "cpp"), (".go", "go"), (".h", "c"),
    (".hh", "cpp"), (".hpp", "cpp"), (".hxx", "cpp"), (".java", "java"), (".js", "javascript"),
    (".jsx", "javascript"), (".kt", "kotlin"), (".kts", "kotlin"), (".lua", "lua"),
    (".mjs", "javascript"), (".mts", "typescript"), (".php", "php"), (".py", "python"),
    (".pyi", "python"), (".pyw", "python"), (".rake", "ruby"), (".rb", "ruby"), (".rs", "rust"),
    (".sc", "scala"), (".scala", "scala"), (".sh", "bash"), (".swift", "swift"),
    (".ts", "typescript"), (".tsx", "tsx")]

/-- The supported languages, in order. -/
def supportedLanguages : List String :=
  ["bash", "c", "cpp", "csharp", "go", "java", "javascript", "kotlin", "lua", "php", "python",
    "ruby", "rust", "scala", "swift", "tsx", "typescript"]

/-- A name in lower case, without the blanks around it, and with aliases resolved. -/
def canonicalName (name : String) : String :=
  let plain := String.ofList (Text.lower (Text.trim name.toList))
  ((languageAliases.find? (·.1 == plain)).map Prod.snd).getD plain

/-- A name that stands for no supported language. -/
structure UnknownLanguage where
  name : String
deriving DecidableEq, Repr

def UnknownLanguage.message (e : UnknownLanguage) : String :=
  "Unsupported language '" ++ e.name ++ "'. Supported: " ++ Text.quotedList supportedLanguages

/-- The supported language that a name stands for. -/
def normalizeLanguage (name : String) : Except UnknownLanguage String :=
  let language := canonicalName name
  if supportedLanguages.contains language then .ok language else .error ⟨name⟩

/-- The supported language of a file, by its extension. -/
def detectLanguage (path : String) : Option String :=
  (languageExtensions.find? (·.1 == FilePath.extensionOf path)).map Prod.snd

/-- The extensions of a language, in order. -/
def extensionsOf (language : String) : List String :=
  (languageExtensions.filter (·.2 == language)).map Prod.fst

/-! ### Registries -/

structure Registry where
  profiles : List Profile

/-- Whether the profile lists the extension, which is in lower case; its own need not be. -/
def Profile.lists (profile : Profile) (extension : String) : Bool :=
  profile.extensions.any fun own => String.ofList (Text.lower own.toList) == extension

namespace Registry

def named? (registry : Registry) (name : String) : Option Profile :=
  registry.profiles.reverse.find? (·.name == name)

/-- The profile of a language asked for by any of its names. -/
def get? (registry : Registry) (name : String) : Option Profile :=
  registry.named? (canonicalName name)

/-- The profile of a file, by its extension. -/
def resolve? (registry : Registry) (path : String) : Option Profile :=
  registry.profiles.reverse.find? (·.lists (FilePath.extensionOf path))

def contains (registry : Registry) (name : String) : Bool :=
  (registry.get? name).isSome

/-- The names of the profiles, in order, each once. -/
def languages (registry : Registry) : List String :=
  Text.sortedNames (registry.profiles.map Profile.name)

/-- The profiles that names find, in the order of their names. -/
def toList (registry : Registry) : List Profile :=
  registry.languages.filterMap registry.named?

def size (registry : Registry) : Nat :=
  registry.languages.length

end Registry

/-- A file for which there is no profile; the text names it and perhaps its language. -/
structure UnsupportedFile where
  path : String
deriving DecidableEq, Repr

def UnsupportedFile.message (e : UnsupportedFile) : String :=
  "No language profile for " ++ Text.quoted e.path

def Registry.require (registry : Registry) (path : String) : Except UnsupportedFile Profile :=
  match registry.resolve? path with
  | some profile => .ok profile
  | none => .error ⟨path⟩

end CodeOutline
