import EditorServices.Path
import EditorServices.Text.LowerCase

/-!
# `Language` — language identifiers by file extension
-/

namespace EditorServices.Language

/-- Language identifiers that servers expect, by extension. -/
def extensions : List (String × String) :=
  [(".c", "c"), (".h", "c"), (".cpp", "cpp"), (".cc", "cpp"), (".cxx", "cpp"), (".hpp", "cpp"),
   (".cs", "csharp"), (".css", "css"), (".dart", "dart"), (".go", "go"), (".html", "html"),
   (".java", "java"), (".js", "javascript"), (".jsx", "javascriptreact"), (".json", "json"),
   (".kt", "kotlin"), (".lua", "lua"), (".md", "markdown"), (".php", "php"), (".py", "python"),
   (".pyi", "python"), (".rb", "ruby"), (".rs", "rust"), (".scss", "scss"), (".sh", "shellscript"),
   (".bash", "shellscript"), (".sql", "sql"), (".swift", "swift"), (".toml", "toml"),
   (".ts", "typescript"), (".tsx", "typescriptreact"), (".yaml", "yaml"), (".yml", "yaml"),
   (".zig", "zig")]

/-- The identifier of files without a known extension. -/
def plainText : String := "plaintext"

/-- The language of a file by the lower case of its extension, if the extension is known. -/
def ofPath? (path : String) : Option String :=
  extensions.lookup (String.ofList (lowerText (Path.extension path.toList)))

/-- The language of a file, or another one if its extension is not known. -/
def ofPath (path otherwise : String) : String := (ofPath? path).getD otherwise

end EditorServices.Language
