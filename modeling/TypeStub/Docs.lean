import TypeStub.Config.Profile
import TypeStub.Config.Show
import TypeStub.Docs.Table
/-!
# Documents about settings and profiles

A document marks the places where the tables of settings and the descriptions of profiles belong.
Whatever stands between two marks is replaced.
-/

namespace TypeStub.Docs

open TypeStub.Text TypeStub.Config

/-- Why a document cannot be brought up to date. -/
inductive DocsError
  /-- A mark is not there. -/
  | noMark
  | settings (cause : ShowError)
  deriving DecidableEq, Repr

/-- The two marks around a region. -/
structure Region where
  start : String
  stop : String
  deriving DecidableEq, Repr

def settingsRegion : Region :=
  { start := "<!-- CONFIG_START -->\n", stop := "\n<!-- CONFIG_END -->" }

def profilesRegion : Region :=
  { start := "<!-- PROFILE_START -->\n", stop := "\n<!-- PROFILE_END -->" }

/-- The text up to the first start mark, that mark, the new content, and the text from the first
stop mark on. -/
def Region.fill (r : Region) (text content : List Char) : Except DocsError (List Char) :=
  match cut? r.start.toList text, cut? r.stop.toList text with
  | some (before, _), some (_, after) =>
    .ok (before ++ r.start.toList ++ content ++ r.stop.toList ++ after)
  | _, _ => .error .noMark

def settingRows : List (List String) :=
  Field.all.map fun f =>
    ["`" ++ f.key ++ "`\n\ntype: `" ++ f.validatedType.text ++ "`", f.description]

def withSettings (render : Renderer) (text : List Char) : Except DocsError (List Char) :=
  settingsRegion.fill text
    (table render ["Config Setting", "Description"] settingRows).toList

def profileText (write : Toml.Writer) (p : Profile) : Except DocsError String :=
  match p.config.render "toml" write with
  | .error cause => .error (.settings cause)
  | .ok settings =>
    .ok (join "\n"
      ["#### Profile `" ++ p.name ++ "`", "", p.description, "",
        "Exact config settings set by the profile:", "", "```toml", settings, "```", ""])

def withProfiles (write : Toml.Writer) (text : List Char) : Except DocsError (List Char) := do
  let texts ← profiles.mapM (profileText write)
  profilesRegion.fill text (String.join texts).toList

def blank : String :=
  join "\n"
    ["", "# debug config", "<!-- CONFIG_START -->", "<!-- CONFIG_END -->", "",
      "# debug profiles", "<!-- PROFILE_START -->", "<!-- PROFILE_END -->", ""]

def updated (render : Renderer) (write : Toml.Writer) (text : List Char) :
    Except DocsError (List Char) := do
  let text ← withSettings render text
  withProfiles write text

end TypeStub.Docs
