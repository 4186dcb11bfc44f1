/-
  This file lists the pages of help that are shown on request.

  Key definitions include:
    * `CommandLine.overviewPage`
    * `CommandLine.generatePage`
    * `CommandLine.cleanPage`
-/

namespace TypedClient

namespace CommandLine

/- The page about the program. -/
def overviewPage : List String :=
  ["Usage: main [OPTIONS] COMMAND [ARGS]...",
    "",
    "  API Client Gen: generate a typed Python client from a " ++
      "Swagger schema and",
    "  live samples.",
    "",
    "Options:",
    "  --help  Show this message and exit.",
    "",
    "Commands:",
    "  clean     Remove generated models.py and client.py.",
    "  generate  Fetch the schema, sample parameterless GETs " ++
      "and write..."]

/- The page about generation. -/
def generatePage : List String :=
  ["Usage: main generate [OPTIONS]",
    "",
    "  Fetch the schema, sample parameterless GETs and write " ++
      "models.py + client.py.",
    "",
    "Options:",
    "  --base TEXT          Base URL of the API.  " ++
      "[default: http://localhost:6397]",
    "  -o, --out DIRECTORY  Output directory for generated " ++
      "code.  [default: lib]",
    "  --schema-path TEXT   Schema location relative to the " ++
      "base URL.  [default:",
    "                       /swagger-schema.json]",
    "  --schema-file FILE   Read the schema from a local " ++
      "JSON/YAML file instead.",
    "  --no-sample          Skip live sampling; every operation " ++
      "returns raw bytes.",
    "  --help               Show this message and exit."]

/- The page about removal. -/
def cleanPage : List String :=
  ["Usage: main clean [OPTIONS]",
    "",
    "  Remove generated models.py and client.py.",
    "",
    "Options:",
    "  -o, --out DIRECTORY  Output directory of generated " ++
      "code.  [default: lib]",
    "  --help               Show this message and exit."]

end CommandLine

end TypedClient
