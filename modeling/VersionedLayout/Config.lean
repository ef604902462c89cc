import VersionedLayout.Json.Basic
set_option autoImplicit false

/-!
# Configuration of the output

The texts that every generated header shares: its opening comment, the headers that it always
includes, and the names and the indentation that it uses.

## Main definitions

* `VersionedLayout.Config` — the configuration; a member that is not given has its default.
* `VersionedLayout.Config.toJson` — its JSON form.
-/

namespace VersionedLayout

/-- The configuration of the generated text. -/
structure Config where
  /-- Comment lines at the top of the header, without their slashes. -/
  banner : List String := ["File generated by verstruct.", "/!\\ Do not edit by hand"]
  /-- Headers that are always included, before those that the types need. -/
  includeHeaders : List String := ["IO/Common.hpp", "Utils/Meta/Reflection.hpp"]
  /-- The qualified name of the enumeration of versions. -/
  versionEnum : String := "IO::Common::ClientVersions"
  /-- The name of the template parameter of versioned structs. -/
  versionParam : String := "client_version"
  /-- The macro that declares a reflection descriptor. -/
  reflectionMacro : String := "REFLECTION_DESCRIPTOR"
  /-- The name of the static factory of default values. -/
  defaultInit : String := "DefaultInit"
  /-- One level of indentation. -/
  indent : String := "  "
  deriving DecidableEq, Repr

namespace Config

/-- The indentation of a line at the given level. -/
def indentation (c : Config) (level : Nat) : String :=
  String.join (List.replicate level c.indent)

/-- The enumerator of a version, qualified with its enumeration. -/
def enumerator (c : Config) (versionName : String) : String :=
  c.versionEnum ++ "::" ++ versionName

/-- The JSON form of a configuration, with its members in declared order. -/
def toJson (c : Config) : Json :=
  .object
    [("banner", .ofStrings c.banner),
     ("include_headers", .ofStrings c.includeHeaders),
     ("version_enum", .string c.versionEnum),
     ("version_param", .string c.versionParam),
     ("reflection_macro", .string c.reflectionMacro),
     ("default_init", .string c.defaultInit),
     ("indent", .string c.indent)]

end Config

end VersionedLayout
