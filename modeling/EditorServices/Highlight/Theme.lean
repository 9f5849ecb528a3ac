import EditorServices.Highlight.Style

/-!
# `Highlight.Theme` — the themes that can be chosen

Each theme lists its styles with the scopes that have them; scopes that are not listed inherit.

## Contents
- `Theme.ofGroups`: a theme from styles with their scopes.
- The themes `monokai`, `friendly` and `native`, and `Theme.table` with their names.
-/

namespace EditorServices.Highlight.Theme

/-- The theme in which each style has the listed scopes; the empty name stands for the root. -/
def ofGroups (groups : List (Style × List String)) : Theme :=
  ⟨groups.flatMap fun (style, names) =>
    names.map fun name => (if name.isEmpty then Scope.root else Scope.below name, style)⟩

/-- Bright colours on a dark ground. -/
def monokai : Theme := ofGroups [
  (Style.colored "f8f8f2", [
    "Escape", "Generic", "Generic.Heading", "Name", "Name.Entity", "Name.Label", "Name.Namespace",
    "Name.Property", "Name.Variable", "Name.Variable.Class", "Name.Variable.Global",
    "Name.Variable.Instance", "Name.Variable.Magic", "Other", "Punctuation", "Punctuation.Marker",
    "Text", "Text.Whitespace", ""]),
  ((Style.colored "ed007e").withBackground "1e0010", [
    "Error"]),
  (Style.colored "959077", [
    "Comment", "Comment.Hashbang", "Comment.Multiline", "Comment.Preproc", "Comment.PreprocFile",
    "Comment.Single", "Comment.Special", "Generic.Subheading"]),
  (Style.colored "66d9ef", [
    "Generic.Output", "Generic.Traceback", "Keyword", "Keyword.Constant", "Keyword.Declaration",
    "Keyword.Pseudo", "Keyword.Reserved", "Keyword.Type", "Name.Constant"]),
  (Style.colored "ff4689", [
    "Generic.Deleted", "Generic.Error", "Keyword.Namespace", "Name.Tag", "Operator",
    "Operator.Word"]),
  (Style.colored "a6e22e", [
    "Generic.Inserted", "Name.Attribute", "Name.Builtin", "Name.Builtin.Pseudo", "Name.Class",
    "Name.Decorator", "Name.Exception", "Name.Function", "Name.Function.Magic", "Name.Other"]),
  (Style.colored "ae81ff", [
    "Literal", "Literal.Number", "Literal.Number.Bin", "Literal.Number.Float",
    "Literal.Number.Hex", "Literal.Number.Integer", "Literal.Number.Integer.Long",
    "Literal.Number.Oct", "Literal.String.Escape"]),
  (Style.colored "e6db74", [
    "Literal.Date", "Literal.String", "Literal.String.Affix", "Literal.String.Backtick",
    "Literal.String.Char", "Literal.String.Delimiter", "Literal.String.Doc",
    "Literal.String.Double", "Literal.String.Heredoc", "Literal.String.Interpol",
    "Literal.String.Other", "Literal.String.Regex", "Literal.String.Single",
    "Literal.String.Symbol"]),
  ((Style.colored "f8f8f2").withItalic, [
    "Generic.Emph"]),
  ((Style.colored "ff4689").withBold, [
    "Generic.Prompt"]),
  ((Style.colored "f8f8f2").withBold, [
    "Generic.Strong"]),
  (((Style.colored "f8f8f2").withBold).withItalic, [
    "Generic.EmphStrong"])]

/-- Muted colours on a light ground. -/
def friendly : Theme := ofGroups [
  (Style.none, [
    "Error", "Escape", "Generic", "Literal", "Literal.Date", "Name", "Name.Other", "Name.Property",
    "Other", "Punctuation", "Punctuation.Marker", "Text", ""]),
  (Style.colored "bbbbbb", [
    "Text.Whitespace"]),
  ((Style.colored "60a0b0").withItalic, [
    "Comment", "Comment.Hashbang", "Comment.Multiline", "Comment.PreprocFile", "Comment.Single"]),
  (Style.colored "007020", [
    "Comment.Preproc", "Keyword.Pseudo", "Name.Builtin", "Name.Builtin.Pseudo", "Name.Exception"]),
  ((Style.colored "60a0b0").withBackground "fff0f0", [
    "Comment.Special"]),
  ((Style.colored "007020").withBold, [
    "Keyword", "Keyword.Constant", "Keyword.Declaration", "Keyword.Namespace", "Keyword.Reserved",
    "Operator.Word"]),
  (Style.colored "902000", [
    "Keyword.Type"]),
  (Style.colored "666666", [
    "Operator"]),
  (Style.colored "06287e", [
    "Name.Function", "Name.Function.Magic"]),
  ((Style.colored "0e84b5").withBold, [
    "Name.Class", "Name.Namespace"]),
  (Style.colored "bb60d5", [
    "Name.Variable", "Name.Variable.Class", "Name.Variable.Global", "Name.Variable.Instance",
    "Name.Variable.Magic"]),
  (Style.colored "60add5", [
    "Name.Constant"]),
  ((Style.colored "002070").withBold, [
    "Name.Label"]),
  ((Style.colored "d55537").withBold, [
    "Name.Entity"]),
  (Style.colored "4070a0", [
    "Literal.String", "Literal.String.Affix", "Literal.String.Backtick", "Literal.String.Char",
    "Literal.String.Delimiter", "Literal.String.Double", "Literal.String.Heredoc",
    "Literal.String.Single", "Name.Attribute"]),
  ((Style.colored "062873").withBold, [
    "Name.Tag"]),
  ((Style.colored "555555").withBold, [
    "Name.Decorator"]),
  ((Style.colored "4070a0").withItalic, [
    "Literal.String.Doc"]),
  ((Style.colored "70a0d0").withItalic, [
    "Literal.String.Interpol"]),
  ((Style.colored "4070a0").withBold, [
    "Literal.String.Escape"]),
  (Style.colored "235388", [
    "Literal.String.Regex"]),
  (Style.colored "517918", [
    "Literal.String.Symbol"]),
  (Style.colored "c65d09", [
    "Literal.String.Other"]),
  (Style.colored "40a070", [
    "Literal.Number", "Literal.Number.Bin", "Literal.Number.Float", "Literal.Number.Hex",
    "Literal.Number.Integer", "Literal.Number.Integer.Long", "Literal.Number.Oct"]),
  ((Style.colored "000080").withBold, [
    "Generic.Heading"]),
  ((Style.colored "800080").withBold, [
    "Generic.Subheading"]),
  (Style.colored "A00000", [
    "Generic.Deleted"]),
  (Style.colored "00A000", [
    "Generic.Inserted"]),
  (Style.colored "FF0000", [
    "Generic.Error"]),
  (Style.none.withItalic, [
    "Generic.Emph"]),
  (Style.none.withBold, [
    "Generic.Strong"]),
  (Style.none.withBold.withItalic, [
    "Generic.EmphStrong"]),
  ((Style.colored "c65d09").withBold, [
    "Generic.Prompt"]),
  (Style.colored "888888", [
    "Generic.Output"]),
  (Style.colored "0044DD", [
    "Generic.Traceback"])]

/-- Soft colours on a black ground. -/
def native : Theme := ofGroups [
  (Style.colored "d0d0d0", [
    "Escape", "Generic", "Literal", "Literal.Date", "Name", "Name.Entity", "Name.Label",
    "Name.Other", "Name.Property", "Operator", "Other", "Punctuation", "Punctuation.Marker",
    "Text", ""]),
  (Style.colored "666666", [
    "Text.Whitespace"]),
  ((Style.colored "ababab").withItalic, [
    "Comment", "Comment.Hashbang", "Comment.Multiline", "Comment.PreprocFile", "Comment.Single"]),
  ((Style.colored "ff3a3a").withBold, [
    "Comment.Preproc"]),
  ((Style.colored "e50808").withBold.withBackground "520000", [
    "Comment.Special"]),
  ((Style.colored "6ebf26").withBold, [
    "Keyword", "Keyword.Constant", "Keyword.Declaration", "Keyword.Namespace", "Keyword.Reserved",
    "Keyword.Type", "Name.Tag", "Operator.Word"]),
  (Style.colored "6ebf26", [
    "Keyword.Pseudo"]),
  (Style.colored "ed9d13", [
    "Literal.String", "Literal.String.Affix", "Literal.String.Backtick", "Literal.String.Char",
    "Literal.String.Delimiter", "Literal.String.Doc", "Literal.String.Double",
    "Literal.String.Escape", "Literal.String.Heredoc", "Literal.String.Interpol",
    "Literal.String.Regex", "Literal.String.Single", "Literal.String.Symbol"]),
  (Style.colored "ffa500", [
    "Literal.String.Other", "Name.Decorator"]),
  (Style.colored "51b2fd", [
    "Literal.Number", "Literal.Number.Bin", "Literal.Number.Float", "Literal.Number.Hex",
    "Literal.Number.Integer", "Literal.Number.Integer.Long", "Literal.Number.Oct"]),
  (Style.colored "2fbccd", [
    "Name.Builtin", "Name.Builtin.Pseudo"]),
  (Style.colored "40ffff", [
    "Name.Constant", "Name.Variable", "Name.Variable.Class", "Name.Variable.Global",
    "Name.Variable.Instance", "Name.Variable.Magic"]),
  ((Style.colored "71adff").withUnderline, [
    "Name.Class", "Name.Namespace"]),
  (Style.colored "71adff", [
    "Name.Function", "Name.Function.Magic"]),
  (Style.colored "bbbbbb", [
    "Name.Attribute", "Name.Exception"]),
  ((Style.colored "ffffff").withBold, [
    "Generic.Heading"]),
  ((Style.colored "ffffff").withUnderline, [
    "Generic.Subheading"]),
  (Style.colored "ff3a3a", [
    "Generic.Deleted", "Generic.Error", "Generic.Traceback"]),
  (Style.colored "589819", [
    "Generic.Inserted"]),
  ((Style.colored "d0d0d0").withItalic, [
    "Generic.Emph"]),
  ((Style.colored "d0d0d0").withBold, [
    "Generic.Strong"]),
  (((Style.colored "d0d0d0").withBold).withItalic, [
    "Generic.EmphStrong"]),
  (Style.colored "aaaaaa", [
    "Generic.Prompt"]),
  (Style.colored "cccccc", [
    "Generic.Output"]),
  ((Style.colored "a61717").withBackground "e3d2d2", [
    "Error"])]

/-- The themes by name. -/
def table : List (String × Theme) :=
  [("monokai", monokai), ("friendly", friendly), ("native", native)]

end EditorServices.Highlight.Theme
