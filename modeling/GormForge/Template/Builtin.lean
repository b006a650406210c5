import GormForge.Template.Node
import GormForge.Text.Search

/-!
# Built-in templates

The templates that are used where a project brings none of its own.

**Algorithm.**  A template is written down as lines of Go code in which `‹name›` stands for
the value of a name (or of a member of it), and `⟦` and `⟧` stand for braces.

**Contents.**  One template for each kind of file, all beginning with their package clause.
-/

namespace GormForge
namespace Template

/-- The kinds of files that have a template. -/
inductive Kind where
  /-- A model with its generated queries. -/
  | repositoryQueries
  /-- The interface for queries written by hand. -/
  | repositoryCustom
  | controller
  | service
  | router
  | cache
  deriving Repr, DecidableEq, Inhabited

namespace Kind

/-- All kinds. -/
def all : List Kind :=
  [repositoryQueries, repositoryCustom, controller, service, router, cache]

/-- The name of the file that holds a template of a kind. -/
def key : Kind → String
  | repositoryQueries => "repo_gen.tpl"
  | repositoryCustom => "repo_custom.tpl"
  | controller => "controller.tpl"
  | service => "service.tpl"
  | router => "router.tpl"
  | cache => "cache.tpl"

/-- The kind whose template has a given name. -/
def ofKey? (s : String) : Option Kind :=
  all.find? fun kind => kind.key == s

end Kind

/-! ## Notation -/

/-- A brace in the place of its bracket. -/
def braced (c : Char) : Char :=
  if c = '⟦' then '\x7b' else if c = '⟧' then '\x7d' else c

/-- The text of a part of a line. -/
def textNode (cs : List Char) : List Node :=
  if cs = [] then [] else [.text (String.ofList (cs.map braced))]

/-- The value of a name, or of a member of it. -/
def nameExpr (cs : List Char) : Expr :=
  match Text.splitFirst? ['.'] cs with
  | some (name, member) => .member (.name (String.ofList name)) (String.ofList member)
  | none => .name (String.ofList cs)

/-- The nodes of a text after its first hole was opened. -/
def holesAfter (part : List Char) : List Node :=
  match Text.splitFirst? ['›'] part with
  | some (name, rest) => .output (nameExpr name) :: textNode rest
  | none => textNode part

/-- The nodes of a text with holes. -/
def nodesOf (cs : List Char) : List Node :=
  match cs.splitOn '‹' with
  | [] => []
  | first :: rest => textNode first ++ rest.flatMap holesAfter

/-- The nodes of lines with holes. -/
def code (lines : List String) : List Node :=
  nodesOf (String.join (lines.map (· ++ "\n"))).toList

/-! ## Templates -/

/-- A model and its generated queries. -/
def repositoryQueries : List Node :=
  code ["package ‹package›", "", "import ("] ++
  [.loop "import" (.name "imports") (code ["\t\"‹import›\""]) []] ++
  code [
    ")",
    "",
    "// ‹struct_name› ‹struct_comment›",
    "type ‹struct_name› struct ⟦"] ++
  [.loop "field" (.name "fields")
    (nodesOf "\t‹field.name› ‹field.type› `‹field.tags›`".toList ++
      [.output (.choose (.join (.literal (.string " ")) (.member (.name "field") "comment"))
        (.member (.name "field") "comment") (some (.literal (.string "")))), .text "\n"]) []] ++
  code [
    "⟧",
    "",
    "// TableName ‹struct_name›'s table name",
    "func (*‹struct_name›) TableName() string ⟦",
    "\treturn \"‹table_name›\"",
    "⟧",
    "",
    "// ‹interface_name›Gen holds the generated queries of ‹struct_name›Repo.",
    "type ‹interface_name›Gen interface ⟦",
    "\tCreate(ctx context.Context, m *‹struct_name›) error",
    "\tUpdate(ctx context.Context, m *‹struct_name›) error",
    "\tDelete(ctx context.Context, id ‹primary_key_type›) error",
    "\tFindById(ctx context.Context, id ‹primary_key_type›) (*‹struct_name›, error)",
    "\tFindByIds(ctx context.Context, ids []‹primary_key_type›) ([]*‹struct_name›, error)",
    "⟧",
    "",
    "type ‹interface_name›Db struct ⟦",
    "\tdb *gorm.DB",
    "⟧",
    "",
    "func New‹struct_name›Db(db *gorm.DB) ‹struct_name›Repo ⟦",
    "\treturn &‹interface_name›Db⟦db: db⟧",
    "⟧",
    "",
    "func (r *‹interface_name›Db) Create(ctx context.Context, m *‹struct_name›) error ⟦",
    "\treturn r.db.WithContext(ctx).Create(m).Error",
    "⟧",
    "",
    "func (r *‹interface_name›Db) Update(ctx context.Context, m *‹struct_name›) error ⟦",
    "\treturn r.db.WithContext(ctx).Save(m).Error",
    "⟧",
    "",
    "func (r *‹interface_name›Db) Delete(ctx context.Context, id ‹primary_key_type›) error ⟦",
    "\treturn r.db.WithContext(ctx).Where(\"‹primary_key_column› = ?\", id).Delete(&‹struct_name›⟦⟧).Error",
    "⟧",
    "",
    "func (r *‹interface_name›Db) FindById(ctx context.Context, id ‹primary_key_type›) (*‹struct_name›, error) ⟦",
    "\tvar m ‹struct_name›",
    "\tif err := r.db.WithContext(ctx).Where(\"‹primary_key_column› = ?\", id).First(&m).Error; err != nil ⟦",
    "\t\treturn nil, err",
    "\t⟧",
    "\treturn &m, nil",
    "⟧",
    "",
    "func (r *‹interface_name›Db) FindByIds(ctx context.Context, ids []‹primary_key_type›) ([]*‹struct_name›, error) ⟦",
    "\tvar list []*‹struct_name›",
    "\tif err := r.db.WithContext(ctx).Where(\"‹primary_key_column› IN ?\", ids).Find(&list).Error; err != nil ⟦",
    "\t\treturn nil, err",
    "\t⟧",
    "\treturn list, nil",
    "⟧"]

/-- The interface for queries written by hand. -/
def repositoryCustom : List Node :=
  code [
    "package ‹package›",
    "",
    "// ‹struct_name›Repo is the data access layer of table ‹table_name›.",
    "// This file is created once and never regenerated: add custom queries here.",
    "type ‹struct_name›Repo interface ⟦",
    "\t‹interface_name›Gen",
    "⟧"]

/-- A controller. -/
def controller : List Node :=
  code [
    "package ‹package›",
    "",
    "import (",
    "\t\"github.com/gin-gonic/gin\"",
    "",
    "\t\"‹project›/internal/service\"",
    ")",
    "",
    "type ‹name›Controller struct ⟦",
    "\t*Controller",
    "\t‹lower_name›Service service.‹name›Service",
    "⟧",
    "",
    "func New‹name›Controller(controller *Controller, ‹lower_name›Service service.‹name›Service) *‹name›Controller ⟦",
    "\treturn &‹name›Controller⟦",
    "\t\tController: controller,",
    "\t\t‹lower_name›Service: ‹lower_name›Service,",
    "\t⟧",
    "⟧",
    "",
    "func (‹first_char› *‹name›Controller) Get‹name›(ctx *gin.Context) ⟦",
    "⟧"]

/-- A service. -/
def service : List Node :=
  code [
    "package ‹package›",
    "",
    "import (",
    "\t\"context\"",
    ")",
    "",
    "type ‹name›Service interface ⟦",
    "\tGet‹name›(ctx context.Context, id int64) error",
    "⟧",
    "",
    "type ‹lower_name›Service struct ⟦",
    "\t*Service",
    "⟧",
    "",
    "func New‹name›Service(service *Service) ‹name›Service ⟦",
    "\treturn &‹lower_name›Service⟦",
    "\t\tService: service,",
    "\t⟧",
    "⟧",
    "",
    "func (‹first_char› *‹lower_name›Service) Get‹name›(ctx context.Context, id int64) error ⟦",
    "\treturn nil",
    "⟧"]

/-- A router. -/
def router : List Node :=
  code [
    "package ‹package›",
    "",
    "import (",
    "\t\"github.com/gin-gonic/gin\"",
    "",
    "\t\"‹project›/internal/controller\"",
    ")",
    "",
    "func Register‹name›Routes(r *gin.RouterGroup, ‹lower_name›Controller *controller.‹name›Controller) ⟦",
    "\tgroup := r.Group(\"/‹lower_name›\")",
    "\t⟦",
    "\t\tgroup.GET(\"/:id\", ‹lower_name›Controller.Get‹name›)",
    "\t⟧",
    "⟧"]

/-- A cache. -/
def cache : List Node :=
  code [
    "package ‹package›",
    "",
    "import (",
    "\t\"context\"",
    "\t\"time\"",
    "",
    "\t\"github.com/redis/go-redis/v9\"",
    ")",
    "",
    "type ‹name›Cache interface ⟦",
    "\tGet(ctx context.Context, key string) (string, error)",
    "\tSet(ctx context.Context, key string, value string, ttl time.Duration) error",
    "\tDel(ctx context.Context, key string) error",
    "⟧",
    "",
    "type ‹lower_name›Cache struct ⟦",
    "\trdb *redis.Client",
    "⟧",
    "",
    "func New‹name›Cache(rdb *redis.Client) ‹name›Cache ⟦",
    "\treturn &‹lower_name›Cache⟦rdb: rdb⟧",
    "⟧",
    "",
    "func (‹first_char› *‹lower_name›Cache) key(key string) string ⟦",
    "\treturn \"‹lower_name›:\" + key",
    "⟧",
    "",
    "func (‹first_char› *‹lower_name›Cache) Get(ctx context.Context, key string) (string, error) ⟦",
    "\treturn ‹first_char›.rdb.Get(ctx, ‹first_char›.key(key)).Result()",
    "⟧",
    "",
    "func (‹first_char› *‹lower_name›Cache) Set(ctx context.Context, key string, value string, ttl time.Duration) error ⟦",
    "\treturn ‹first_char›.rdb.Set(ctx, ‹first_char›.key(key), value, ttl).Err()",
    "⟧",
    "",
    "func (‹first_char› *‹lower_name›Cache) Del(ctx context.Context, key string) error ⟦",
    "\treturn ‹first_char›.rdb.Del(ctx, ‹first_char›.key(key)).Err()",
    "⟧"]

/-- The built-in template of a kind. -/
def Kind.builtin : Kind → List Node
  | .repositoryQueries => Template.repositoryQueries
  | .repositoryCustom => Template.repositoryCustom
  | .controller => Template.controller
  | .service => Template.service
  | .router => Template.router
  | .cache => Template.cache

end Template
end GormForge
