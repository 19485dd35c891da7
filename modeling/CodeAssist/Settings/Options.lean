import CodeAssist.Json.Basic
import CodeAssist.Matching.Match
import CodeAssist.Settings.Favorite
/-!
# Options of a request

What is hidden, how names are matched, and how members are written. Nine of the options are flags;
the table `Options.flags` gives each its name and its place, so that reading, writing and describing
options go by one list.
-/

namespace CodeAssist

/-- The options of a completion request. -/
structure Options where
  /-- Hide what is deprecated. -/
  checkDeprecation : Bool := false
  /-- Hide members and types that may not be named at the cursor. -/
  checkVisibility : Bool := true
  /-- Hide what the access rules forbid. -/
  checkForbidden : Bool := true
  /-- Hide what the access rules discourage. -/
  checkDiscouraged : Bool := false
  camelCase : Bool := true
  substring : Bool := true
  subword : Bool := false
  /-- Write members of the enclosing classes with their receiver. -/
  forceQualification : Bool := false
  /-- Propose favorites that are not imported, with an import. -/
  suggestStaticImport : Bool := true
  favorites : List String := []
deriving DecidableEq, Repr, Inhabited

/-- An option that is on or off. -/
structure Flag where
  name : String
  get : Options → Bool
  set : Bool → Options → Options

/-- A favorite by its type and its member. -/
def Favorite.toJson (favorite : Favorite) : Json :=
  .object
    [("type", .string favorite.owner.dotted), ("member", Json.ofOption .string favorite.member)]

namespace Options

/-- The flags in the order in which they are written. -/
def flags : List Flag :=
  [⟨"check_deprecation", checkDeprecation, fun b o => { o with checkDeprecation := b }⟩,
   ⟨"check_visibility", checkVisibility, fun b o => { o with checkVisibility := b }⟩,
   ⟨"check_forbidden_reference", checkForbidden, fun b o => { o with checkForbidden := b }⟩,
   ⟨"check_discouraged_reference", checkDiscouraged, fun b o => { o with checkDiscouraged := b }⟩,
   ⟨"camel_case_match", camelCase, fun b o => { o with camelCase := b }⟩,
   ⟨"substring_match", substring, fun b o => { o with substring := b }⟩,
   ⟨"subword_match", subword, fun b o => { o with subword := b }⟩,
   ⟨"force_implicit_qualification", forceQualification,
     fun b o => { o with forceQualification := b }⟩,
   ⟨"suggest_static_import", suggestStaticImport, fun b o => { o with suggestStaticImport := b }⟩]

/-- The name of the list of favorites. -/
def favoritesName : String := "favorite_static_members"

/-- The favorites that can be read. -/
def parsedFavorites (options : Options) : List Favorite :=
  options.favorites.filterMap Favorite.parse?

/-- The optional ways to match. -/
def matching (options : Options) : Matching.MatchOptions :=
  { camelCase := options.camelCase, substring := options.substring, subword := options.subword }

def toJson (options : Options) : Json :=
  .object (flags.map (fun flag => (flag.name, .bool (flag.get options)))
    ++ [(favoritesName, .strings options.favorites)])

end Options

end CodeAssist
