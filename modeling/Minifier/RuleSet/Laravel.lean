import Minifier.RuleSet.Basic

/-!
# The rules for Laravel

The tables of the built-in rule set. Cleaning works on text that is already minified; a pattern
that ends in the shortest way to a closing brace stops at the first one, so a method whose body has
braces of its own is removed in part.
-/

set_option autoImplicit false

namespace Minifier

namespace Laravel

/-- Any number of folders between two parts of a path. -/
def folders : String :=
  "(?:[A-Za-z0-9_-]+/)*"

/-- The paths that are kept. -/
def included : List String :=
  ["API/" ++ folders ++ ".*Controller\\.php$",
    "Controllers/" ++ folders ++ ".*Controller\\.php$",
    "Services/.*Service\\.php$",
    "Events/.*Event\\.php$",
    "Listeners/.*Listener\\.php$",
    "Notification/.*.php$",
    "Dto/.*.php$",
    "Actions/.*.php$",
    "Enums/.*.php$",
    "Jobs/.*.php$",
    "Mail/.*.php$",
    "Rules/.*.php$",
    "TelegramBot/.*\\.php$",
    "Http/Requests/.*Request\\.php$",
    "Http/Resources/.*Resource\\.php$",
    "Imports/" ++ folders ++ ".*\\.php$",
    "Models/" ++ folders ++ ".*\\.php$",
    "Notifications/" ++ folders ++ ".*\\.php$",
    "Providers/" ++ folders ++ ".*\\.php$",
    "Observers/" ++ folders ++ ".*\\.php$",
    "Policies/" ++ folders ++ ".*\\.php$"]

/-- The kept paths that are dropped all the same. -/
def excluded : List String :=
  ["Middleware/(Authenticate|EncryptCookies|PreventRequestDuringMaintenance" ++
      "|RedirectIfAuthenticated|TrimStrings|TrustHosts|TrustProxies" ++
      "|ValidateSignature|VerifyCsrfToken)\\.php$",
    "Providers/(RouteServiceProvider|EventServiceProvider)\\.php$"]

/-- The declarations that are deleted from minified text. -/
def cleanup : List String :=
  ["protected \\$fillable=\\[.*?\\];",
    "protected \\$casts=\\[.*?\\];",
    "public function __construct\\(\\).*?\x7d",
    "public function __construct\\(\\)\x7b\x7d\x7d",
    "public function toArray\\(\\).*?\x7d"]

/-- The groups of a combined file, in order of priority. -/
def groups : List (String × String) :=
  [("models", "Models/.*\\.php$"),
    ("services", "Services/.*\\.php$"),
    ("events", "Events/.*\\.php$"),
    ("listeners", "Listeners/.*\\.php$"),
    ("controllers", "Controllers/.*\\.php$")]

/-- What is deleted from the front of a file that is put into a combined one. -/
def stripPrefix : String :=
  "^<\\?php\\s*"

/-- The patterns of a table. -/
def table (sources : List String) : List Pattern :=
  sources.filterMap fun source => (Pattern.compile source).toOption

/-- The groups of a table. -/
def groupTable (groups : List (String × String)) : List Group :=
  groups.filterMap fun (name, source) => (Pattern.compile source).toOption.map (Group.mk name)

/-- The rule set for Laravel. -/
def rules : RuleSet where
  name := "laravel"
  including := table included
  excluding := table excluded
  cleanup := table cleanup
  groups := groupTable groups
  kind := .php
  extensions := [".php"]
  stripPrefix := (Pattern.compile stripPrefix).toOption
  headerTemplate := some "laravel_header.j2"
  combinedName := "combined.laravel.php"

end Laravel

end Minifier
