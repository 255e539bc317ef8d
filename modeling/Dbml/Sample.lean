import Dbml.Canonical

/-!
# The sample document

A small document that shows tables, settings, references and a block that is not kept.
-/
namespace Dbml

/-- The lines of the sample document. -/
def sampleLines : List String := [
  "Table users \x7b",
  "  id int [pk, increment]",
  "  email varchar [unique, not null]",
  "  username varchar [unique, not null]",
  "  full_name varchar",
  "  created_at timestamp [default: 'now()']",
  "  updated_at timestamp",
  "\x7d",
  "",
  "Table posts \x7b",
  "  id int [pk, increment]",
  "  user_id int [ref: > users.id]",
  "  title varchar [not null]",
  "  content text",
  "  published boolean [default: false]",
  "  created_at timestamp",
  "  updated_at timestamp",
  "\x7d",
  "",
  "Table comments \x7b",
  "  id int [pk, increment]",
  "  post_id int [ref: > posts.id]",
  "  user_id int [ref: > users.id]",
  "  content text [not null]",
  "  created_at timestamp",
  "\x7d",
  "",
  "Table categories \x7b",
  "  id int [pk, increment]",
  "  name varchar [unique, not null]",
  "  description varchar",
  "\x7d",
  "",
  "Table post_categories \x7b",
  "  post_id int [ref: > posts.id]",
  "  category_id int [ref: > categories.id]",
  "",
  "  indexes \x7b",
  "    (post_id, category_id) [pk]",
  "  \x7d",
  "\x7d"]

/-- The sample document (`SAMPLE_DBML`). -/
def sample : String := Canonical.lines sampleLines

end Dbml
