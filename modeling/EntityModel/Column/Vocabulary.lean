/-!
# Column types

The storage types of the known column builders and the kinds of values they hold.
-/

namespace EntityModel.Column

def builderTypes : List (String × String) :=
  [("uuid", "uuid"), ("text", "text"), ("varchar", "varchar"), ("char", "char"),
    ("citext", "citext"), ("integer", "int"), ("int", "int"), ("smallint", "smallint"),
    ("bigint", "bigint"), ("serial", "int"), ("smallserial", "smallint"),
    ("bigserial", "bigint"), ("real", "real"), ("doublePrecision", "double precision"),
    ("double", "double precision"), ("numeric", "numeric"), ("decimal", "decimal"),
    ("boolean", "boolean"), ("timestamp", "timestamp"), ("date", "date"), ("time", "time"),
    ("interval", "interval"), ("json", "json"), ("jsonb", "jsonb"), ("inet", "inet"),
    ("cidr", "cidr"), ("macaddr", "macaddr"), ("bytea", "bytea"), ("blob", "blob")]

/-- The storage type of a column builder, if it is known. -/
def builderType? (builder : String) : Option String := builderTypes.lookup builder

/-- Whether the database counts up the values of a builder's columns. -/
def isCounted (builder : String) : Bool :=
  ["serial", "smallserial", "bigserial"].contains builder

/-- The kind of values that a storage type holds, as documentation names it. -/
def valueKind (type : String) : String :=
  if ["int", "smallint", "real", "double precision"].contains type then "number"
  else if type = "boolean" then "boolean"
  else if ["timestamp", "timestamptz", "date"].contains type then "Date"
  else if ["json", "jsonb"].contains type then "object"
  else "string"

end EntityModel.Column
