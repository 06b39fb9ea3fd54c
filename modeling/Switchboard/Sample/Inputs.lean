import Switchboard.Program
import Switchboard.Sample.Schema

/-! What the converters and the dispatcher of the sample schema are generated from: the text of its
model, the source text that declares its types, and the text of its settings. -/

namespace Switchboard.Sample

/-- The model, which says who claims what and has no constructors of its own. -/
def modelText : String :=
  "\x7b\n" ++
    "  \"groups\": [\n" ++
    "    \x7b\n" ++
    "      \"name\": \"pets\",\n" ++
    "      \"schemas\": [\n" ++
    "        \"typemux_testing_fixtures::schema::Pet\",\n" ++
    "        \"typemux_testing_fixtures::schema::Owner\",\n" ++
    "        \"typemux_testing_fixtures::schema::Tag\"\n" ++
    "      ]\n" ++
    "    \x7d,\n" ++
    "    \x7b\n" ++
    "      \"name\": \"people\",\n" ++
    "      \"schemas\": [\n" ++
    "        \"typemux_testing_fixtures::schema::Owner\",\n" ++
    "        \"typemux_testing_fixtures::schema::Person\",\n" ++
    "        \"typemux_testing_fixtures::schema::Pair\"\n" ++
    "      ]\n" ++
    "    \x7d,\n" ++
    "    \x7b\n" ++
    "      \"name\": \"shadow\",\n" ++
    "      \"schemas\": [\n" ++
    "        \"typemux_testing_fixtures::schema::Pet\"\n" ++
    "      ]\n" ++
    "    \x7d,\n" ++
    "    \x7b\n" ++
    "      \"name\": \"Keywords\",\n" ++
    "      \"accessor\": \"keywords\",\n" ++
    "      \"schemas\": [\n" ++
    "        \"typemux_testing_fixtures::schema::Keyword\",\n" ++
    "        \"typemux_testing_fixtures::schema::Marker\"\n" ++
    "      ]\n" ++
    "    \x7d\n" ++
    "  ]\n" ++
    "\x7d\n"

/-- The source that declares the types. All names of types are made from their own by one macro. -/
def sourceText : String :=
  "//! Types claimed by `schema/model.json`. Fields are public so the\n" ++
    "//! generated converters can construct and read them.\n\n" ++
    "use serde::\x7bDeserialize, Serialize\x7d;\n" ++
    "use typemux::core::Path;\n\n" ++
    "macro_rules! schema_path \x7b\n" ++
    "    ($($ty:ident),* $(,)?) => \x7b\n" ++
    "        $(\n" ++
    "            impl Path for $ty \x7b\n" ++
    "                const PATH: &'static str =\n" ++
    "                    concat!(\"typemux_testing_fixtures::schema::\", stringify!($ty));\n" ++
    "            \x7d\n" ++
    "        )*\n" ++
    "    \x7d;\n" ++
    "\x7d\n\n" ++
    "schema_path!(Pet, Owner, Tag, Person, Pair, Keyword, Marker);\n\n" ++
    "#[derive(Clone, Debug, PartialEq, Eq)]\n" ++
    "pub struct Pet \x7b\n" ++
    "    pub name: String,\n" ++
    "    pub age: u8,\n" ++
    "    pub nickname: Option<String>,\n" ++
    "\x7d\n\n" ++
    "#[derive(Clone, Debug, PartialEq, Eq)]\n" ++
    "pub struct Owner \x7b\n" ++
    "    pub name: String,\n" ++
    "    pub pets: Vec<String>,\n" ++
    "\x7d\n\n" ++
    "/// No constructor parameters.\n" ++
    "#[derive(Clone, Debug, PartialEq, Eq)]\n" ++
    "pub struct Tag;\n\n" ++
    "#[derive(Clone, Debug, PartialEq, Eq)]\n" ++
    "pub struct Person \x7b\n" ++
    "    pub name: String,\n" ++
    "    pub address: Address,\n" ++
    "\x7d\n\n" ++
    "#[derive(Clone, Debug, Deserialize, PartialEq, Eq, Serialize)]\n" ++
    "pub struct Address \x7b\n" ++
    "    pub city: String,\n" ++
    "    pub zip: String,\n" ++
    "\x7d\n\n" ++
    "#[derive(Clone, Debug, PartialEq, Eq)]\n" ++
    "pub struct Pair(pub String, pub i64);\n\n" ++
    "#[derive(Clone, Debug, PartialEq, Eq)]\n" ++
    "pub struct Keyword \x7b\n" ++
    "    pub r#type: String,\n" ++
    "    pub r#match: bool,\n" ++
    "\x7d\n\n" ++
    "#[derive(Clone, Debug, Default, PartialEq, Eq)]\n" ++
    "pub struct Marker \x7b\x7d\n"

def settingsText : String :=
  "namespace = \"crate::internal\"\n" ++
    "dispatcher = \"Dispatcher\"\n" ++
    "conflicts = \"debug\"\n"

/-- The module that the source is the text of. -/
def root : String := "typemux_testing_fixtures::schema"

/-- All that is read of the texts. The types are looked up in the source only. -/
def inputs : Except ProgramError Inputs := do
  let model ← (Model.ofText modelText).mapError .malformedModel
  let sources ← (Catalogue.addSource [] root sourceText).mapError .source
  let config ← (Config.ofText settingsText).mapError .config
  return ⟨model, sources, config⟩

end Switchboard.Sample
