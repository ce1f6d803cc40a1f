import TwigLint.Lint.Policy

/-! # Built-in name tables

The filters, functions and variables that component templates may use, and what is said about the
others.
-/

namespace TwigLint.Rules

def names (l : List String) : List Text := l.map Text.ofString

def hints (l : List (String × String)) : Policy.Hints :=
  l.map fun (name, hint) => (Text.ofString name, Text.ofString hint)

/-- Names that reach into the application. -/
def sandboxed : String :=
  "Keep components sandboxed by avoiding functions calling Drupal application."

/-- Names of extensions for business use. -/
def needsExtension : String :=
  "Needs specific Twig extension. Business usage, not compatible with Design System principles."

/-- Names of functional programming. -/
def functional : String :=
  "Functional programming may be overkill."

/-- Names that escape once more. -/
def escaped : String :=
  "Useless, Drupal already escape all variables."

/-- Names for development. -/
def developmentOnly : String :=
  "Development only."

/-- Names that handle objects. -/
def objectHandling : String :=
  "PHP object manipulation must be avoided."

/-- The built-in table of filters. -/
def filterTable : Policy.Table where
  family := "Twig filter"
  ignore := ["drupal_escape"]
  allow := names
    ["abs", "add_class", "append", "batch", "capitalize", "clean_id", "default", "escape", "first",
    "has_attribute", "has_class", "items", "join", "keys", "last", "length", "lower", "map",
    "merge", "prepend", "remove_attribute", "remove_class", "replace", "reverse", "round", "safe",
    "set_attribute", "slice", "split", "striptags", "t", "trans", "title", "trim", "upper"]
  retire := []
  warn := hints
    [("clean_unique_id", ""),
     ("convert_encoding", "Needs specific PHP extension."),
     ("e", escaped),
     ("filter", functional),
     ("reduce", functional)]
  forbid := hints
    [("placeholder", sandboxed),
     ("render", "Please ensure you are not rendering content too early."),
     ("without", "Avoid 'without' filter on slots, which must stay opaque. Allowed with " ++
        "attributes objects until #3296456 is fixed."),
     ("add_suggestion", sandboxed),
     ("date", objectHandling),
     ("date_modify", objectHandling),
     ("format_date", "Business related. Load config entities."),
     ("country_name", needsExtension),
     ("currency_name", needsExtension),
     ("currency_symbol", needsExtension),
     ("data_uri", needsExtension),
     ("format_currency", needsExtension),
     ("format_datetime", needsExtension),
     ("format_number", needsExtension),
     ("format_time", needsExtension),
     ("html_to_markdown", needsExtension),
     ("inky_to_html", needsExtension),
     ("inline_css", needsExtension),
     ("language_name", needsExtension),
     ("locale_name", needsExtension),
     ("markdown_to_html", needsExtension),
     ("slug", needsExtension),
     ("timezone_name", needsExtension),
     ("u", needsExtension),
     ("test_filter", developmentOnly)]
  graylist := false

/-- The built-in table of functions. -/
def functionTable : Policy.Table where
  family := "Twig function"
  ignore := ["render_var"]
  allow := names
    ["create_attribute", "random", "range"]
  retire := hints
    [("pattern", "Replace with Twig function component().")]
  warn := hints
    [("source", "Bad architecture, but sometimes needed for shared static files."),
     ("component_story", "Not expected in real usage components."),
     ("include", "Use slots instead of hard embedding a component in the template with 'include'.")]
  forbid := hints
    [("active_theme", sandboxed),
     ("active_theme_path", sandboxed),
     ("attach_library", "The asset library attachment would be more discoverable if declared in " ++
        "the component definition."),
     ("attribute", "Useless and confusing, see " ++
        "https://www.drupal.org/project/ui_suite_bootstrap/issues/3382230."),
     ("constant", sandboxed),
     ("date", "Too business & l10n related."),
     ("file_url", "Should avoid using."),
     ("link", "PHP URL object, or useless if URL string."),
     ("path", sandboxed),
     ("url", sandboxed),
     ("block", "Use slots instead of hard embedding a component in the template with 'block'."),
     ("parent", "Use slots instead of hard embedding a component in the template with 'parent'."),
     ("pattern_preview", "Legacy UI Patterns 1, not expected in real usage components."),
     ("help_route_link", "Bad architecture: Help Drupal module only."),
     ("help_topic_link", "Bad architecture: Help Drupal module only."),
     ("dump", developmentOnly),
     ("devel_dump", developmentOnly),
     ("kpr", developmentOnly),
     ("kint", developmentOnly),
     ("devel_message", developmentOnly),
     ("dpm", developmentOnly),
     ("dsm", developmentOnly),
     ("add_component_context", developmentOnly),
     ("validate_component_props", developmentOnly),
     ("sdc_additional_context", "Deprecated and development only."),
     ("sdc_validate_props", "Deprecated and development only."),
     ("country_names", needsExtension),
     ("country_timezones", needsExtension),
     ("currency_names", needsExtension),
     ("html_classes", "Needs specific Twig extension."),
     ("language_names", needsExtension),
     ("locale_names", needsExtension),
     ("script_names", needsExtension),
     ("template_from_string", "Bad architecture."),
     ("timezone_names", needsExtension),
     ("wp_dump", developmentOnly),
     ("query_type", developmentOnly),
     ("query_executable", developmentOnly)]
  graylist := false

/-- The built-in table of variables. -/
def variableTable : Policy.Table where
  family := "Twig variable"
  ignore := []
  allow := []
  retire := []
  warn := []
  forbid := hints
    [("componentMetadata", "")]
  graylist := false

end TwigLint.Rules
