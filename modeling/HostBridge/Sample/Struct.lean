import HostBridge.Sample.Value

/-!
# Structs of the sample program

Plain records, records within records, recursive ones, records with private
fields, with runtime objects, with names that collide once they are exposed, and
records at the limit of what a type has slots for.
-/

namespace HostBridge.Sample

/-- A field that runtime code sees. -/
def field (name : String) (type : HostType) : FieldDecl := ⟨name, type, true⟩

/-- A method that looks at its receiver. -/
def viewer (name doc : String) (parameters : List HostType) (result : HostType)
    (run : Behaviour) : MethodDecl :=
  ⟨name, doc, .shared, parameters, result, run⟩

/-- A method that changes its receiver. -/
def changer (name doc : String) (parameters : List HostType) (result : HostType)
    (run : Behaviour) : MethodDecl :=
  ⟨name, doc, .exclusive, parameters, result, run⟩

/-- A method that takes a copy of its receiver. -/
def consumer (name doc : String) (parameters : List HostType) (result : HostType)
    (run : Behaviour) : MethodDecl :=
  ⟨name, doc, .consumed, parameters, result, run⟩

/-! ## Points -/

/-- Scale a point by the keyword argument `factor`, and say by how much. -/
def scalePoint : Behaviour := fun heap subject arguments =>
  let factor := wrap (keywordNumber heap (argument arguments 0) "factor" 1)
  .returning (point (pointX subject * factor) (pointY subject * factor)) (word factor)

/-- The point half way between two; halves are rounded toward zero. -/
def midPoint (left right : HostValue) : HostValue :=
  point ((wrap (pointX left + pointX right)).tdiv 2) ((wrap (pointY left + pointY right)).tdiv 2)

/-- Add points and a bias to a point. -/
def absorbPoints (subject : HostValue) (others : List HostValue) (bias : Int) : HostValue :=
  point (others.foldl (fun total other => total + pointX other) (pointX subject) + bias)
    (others.foldl (fun total other => total + pointY other) (pointY subject))

def pointDecl : StructDecl where
  name := "Point"
  fields := [field "x" i64, field "y" i64]
  methods := [
    viewer "area" "Width times height" [] i64
      (observing fun subject _ => word (pointX subject * pointY subject)),
    changer "move_by" "Moves the point\n\nby an offset" [i64, i64] .unit
      (assigning fun subject arguments =>
        point (pointX subject + numberAt arguments 0) (pointY subject + numberAt arguments 1)),
    consumer "swapped" "" [] pointType
      (observing fun subject _ => point (pointY subject) (pointX subject)),
    viewer "coords" "" [] (.tuple [i64, i64])
      (observing fun subject _ => .tuple (components subject)),
    changer "scale" "" [.keywords] i64 scalePoint,
    viewer "MidPoint" "" [pointType] pointType
      (observing fun subject arguments => midPoint subject (argument arguments 0)),
    consumer "shifted" "Mutates only the clone" [i64] (.boxed pointType)
      (observing fun subject arguments =>
        .boxed (point (pointX subject + numberAt arguments 0) (pointY subject))),
    viewer "maybe" "" [.bool] (.optional pointType)
      (observing fun subject arguments => presentIf (truth (argument arguments 0)) subject),
    viewer "many" "" [u8] (.seq pointType)
      (observing fun subject arguments =>
        .seq ((below (numberAt arguments 0)).map fun step =>
          point (pointX subject + step) (pointY subject))),
    changer "absorb" "" [.seq pointType, .optional i64] i64
      (updating fun subject arguments =>
        let others := components (argument arguments 0)
        (absorbPoints subject others (optionalNumber (argument arguments 1)),
          word others.length)),
    viewer "tagged" "" [.object, .keywords] (.tuple [.object, i64, .keywords])
      (observing fun subject arguments =>
        .tuple [argument arguments 0, word (pointX subject), argument arguments 1]),
    changer "explode" "" [.text] .unit fun _ subject arguments =>
      .panicking (point 999 (pointY subject)) (string (argument arguments 0))]

/-! ## Records -/

def metaDecl : StructDecl := ⟨"Meta", [field "name" .text, field "weight" f64], []⟩

def segmentDecl : StructDecl where
  name := "Segment"
  fields := [field "start" pointType, field "end" pointType, field "tags" (.seq metaType),
    field "pivot" (.optional (.boxed pointType))]
  methods := []

def inventoryDecl : StructDecl where
  name := "Inventory"
  fields := [field "counts" (.map .sorted .text u32), field "payload" .bytes, field "ratio" f32]
  methods := []

def withOpaqueDecl : StructDecl :=
  ⟨"WithOpaque", [field "id" i64, field "handle" handleType], []⟩

/-! ## Records within records -/

def innerDecl : StructDecl where
  name := "Inner"
  fields := [field "n" i32]
  methods := [
    changer "bump" "" [] i32 (updating fun subject _ =>
      let next := halfWord (number (component subject 0) + 1)
      (.struct [next], next))]

def middleDecl : StructDecl := ⟨"Middle", [field "inner" innerType, field "tag" .text], []⟩

/-- The number in the record inside a middle record. -/
def innerNumber (middle : HostValue) : Int := number (component (component middle 0) 0)

def outerDecl : StructDecl where
  name := "Outer"
  fields := [field "first" middleType, field "second" middleType,
    field "list" (.seq middleType)]
  methods := [
    viewer "total" "" [] i64 (observing fun subject _ =>
      word ((components (component subject 2)).foldl
        (fun total middle => total + innerNumber middle)
        (innerNumber (component subject 0) + innerNumber (component subject 1)))),
    changer "swap" "" [] .unit (assigning fun subject _ =>
      .struct [component subject 1, component subject 0, component subject 2]),
    viewer "get_first" "" [] middleType (observing fun subject _ => component subject 0)]

/-! ## Private fields -/

def secretDecl : StructDecl where
  name := "Secret"
  fields := [field "shown" i64, field "label" .text, ⟨"hidden", i64, false⟩]
  methods := [
    changer "hide" "" [i64] .unit
      (assigning fun subject arguments => subject.setField 2 (argument arguments 0)),
    viewer "reveal" "" [] i64 (observing fun subject _ => component subject 2)]

/-- Write the private number of a secret, wherever a field keeps the secret. -/
def plantIn (hidden : HostValue) : HostValue → HostValue
  | .struct fields => (HostValue.struct fields).setField 2 hidden
  | .boxed value => .boxed (plantIn hidden value)
  | .present value => .present (plantIn hidden value)
  | .seq elements => .seq (elements.map (·.setField 2 hidden))
  | value => value

/-- The private numbers of the secrets in a vault. -/
def peekInto (vault : HostValue) : HostValue :=
  let maybe :=
    match component vault 2 with
    | .present secret => .present (component secret 2)
    | other => other
  .tuple [component (component vault 0) 2, component (component vault 1) 2, maybe,
    .seq ((components (component vault 3)).map (component · 2))]

def vaultDecl : StructDecl where
  name := "Vault"
  fields := [field "secret" secretType, field "boxed" (.boxed secretType),
    field "maybe" (.optional secretType), field "list" (.seq secretType)]
  methods := [
    changer "plant" "" [i64] .unit (assigning fun subject arguments =>
      .struct ((components subject).map (plantIn (argument arguments 0)))),
    viewer "peek" "" [] (.tuple [i64, i64, .optional i64, .seq i64])
      (observing fun subject _ => peekInto subject)]

/-! ## Names that collide -/

/-- Code with a constant result. -/
def constant (value : Int) : Behaviour := computing fun _ => word value

def collideDecl : StructDecl where
  name := "Collide"
  fields := [field "fooBar" i64, field "foo_bar" i64, field "URL" .text, field "type" i64]
  methods := [
    viewer "fooBarSum" "" [] i64 (observing fun subject _ =>
      word (number (component subject 0) + number (component subject 1))),
    viewer "FooBar" "Hidden behind the field" [] i64 (constant (-1)),
    viewer "twice" "" [] i64 (constant 2),
    viewer "Twice" "" [] i64 (constant 22),
    viewer "__class__" "" [] i64 (constant 7)]

/-! ## Nothing, anything, everything -/

def emptyDecl : StructDecl := ⟨"Empty", [], []⟩

def hasEmptyDecl : StructDecl :=
  ⟨"HasEmpty", [field "a" emptyType, field "n" i64, field "b" emptyType], []⟩

def dynDecl : StructDecl where
  name := "Dyn"
  fields := [field "payload" .object, field "opts" .keywords, field "items" (.seq .object)]
  methods := [
    changer "swap_payload" "" [.object] .object (updating fun subject arguments =>
      (subject.setField 0 (argument arguments 0), component subject 0))]

def primsDecl : StructDecl where
  name := "Prims"
  fields := [field "flag" .bool, field "a" i8, field "b" i16, field "c" i32, field "d" i64,
    field "e" (.int .isize), field "f" u8, field "g" u16, field "h" u32, field "i" u64,
    field "j" (.int .usize), field "f32v" f32, field "f64v" f64,
    field "c32v" (.complex .single), field "c64v" (.complex .double), field "text" .text,
    field "raw" .bytes, field "unit" .unit, field "pair" (.tuple [i8, .text]),
    field "opt" (.optional i64), field "boxed" (.boxed i64),
    field "boxed_point" (.boxed pointType), field "map" (.map .sorted i32 (.seq .text)),
    field "nested" (.seq (.seq i32))]
  methods := []

/-! ## Recursive records -/

/-- The number of nodes of a chain. -/
def chainLength : HostValue → Nat
  | .struct [_, .present (.boxed rest)] => chainLength rest + 1
  | _ => 1

def nodeDecl : StructDecl where
  name := "Node"
  fields := [field "value" i64, field "next" (.optional (.boxed nodeType))]
  methods := [
    viewer "length" "" [] i64 (observing fun subject _ => word (chainLength subject)),
    changer "push" "" [i64] .unit (assigning fun subject arguments =>
      .struct [component subject 0,
        .present (.boxed (.struct [argument arguments 0, component subject 1]))])]

def treeDecl : StructDecl := ⟨"Tree", [field "value" i64, field "children" (.seq treeType)], []⟩

def pingDecl : StructDecl :=
  ⟨"Ping", [field "n" i64, field "pong" (.optional (.boxed pongType))], []⟩

def pongDecl : StructDecl where
  name := "Pong"
  fields := [field "n" i64, field "ping" (.optional (.boxed pingType)), field "inner" innerType]
  methods := []

/-! ## Wide records -/

/-- Bytes with numbered names. -/
def wideFields (count : Nat) : List FieldDecl :=
  (List.range count).map fun index => field s!"f{index}" u8

def wide120Decl : StructDecl where
  name := "Wide120"
  fields := wideFields 120
  methods := [
    viewer "first" "" [] u8 (observing fun subject _ => component subject 0),
    viewer "last" "" [] u8 (observing fun subject _ => component subject 119),
    changer "fill" "" [u8] .unit (assigning fun subject arguments =>
      (subject.setField 0 (argument arguments 0)).setField 119 (argument arguments 0))]

/-- The structs, each at the place that its type names. -/
def structs : List StructDecl :=
  [pointDecl, metaDecl, segmentDecl, inventoryDecl, withOpaqueDecl, innerDecl, middleDecl,
    outerDecl, secretDecl, vaultDecl, collideDecl, emptyDecl, hasEmptyDecl, dynDecl, primsDecl,
    nodeDecl, treeDecl, pingDecl, pongDecl, wide120Decl, ⟨"Wide128", wideFields 128, []⟩,
    ⟨"Wide129", wideFields 129, []⟩]

end HostBridge.Sample
