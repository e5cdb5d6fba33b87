/-
  CodeOutline/Languages/Bundle.lean
  =================================
  **The rule files of the supported languages.**

  A definition is listed under the role that says how much of it is kept.  Priorities settle
  overlaps: a construct that is kept whole outranks the bodies around it, and a function value
  outranks the field that holds it.
-/
import CodeOutline.Languages.Load

namespace CodeOutline.Bundle

def bash : String :=
  "; option: retain-unclaimed=true

; rule: signature-only body=body,compound_statement
(function_definition) @definition
"

def c : String :=
  "; option: retain-unclaimed=true

; rule: signature-only body=body
(function_definition) @definition

; rule: full-definition
(struct_specifier body: (_)) @definition
(union_specifier body: (_)) @definition
(enum_specifier body: (_)) @definition
(type_definition) @definition
"

def cpp : String :=
  "; option: retain-unclaimed=true

; rule: signature-only body=body
(function_definition) @definition

; rule: signature-only body=body
(class_specifier body: (_)) @definition
(struct_specifier body: (_)) @definition
(namespace_definition) @definition

; rule: full-definition
(enum_specifier body: (_)) @definition
(union_specifier body: (_)) @definition
(type_definition) @definition
(alias_declaration) @definition
(field_declaration) @definition

; rule: name-anchor
(access_specifier) @definition
"

def csharp : String :=
  "; option: retain-unclaimed=true

; rule: signature-only body=body
(namespace_declaration) @definition
(class_declaration) @definition
(struct_declaration) @definition
(record_declaration) @definition

; rule: signature-only body=body
(method_declaration) @definition
(constructor_declaration) @definition

; rule: full-definition priority=20
(interface_declaration) @definition
(enum_declaration) @definition

; rule: full-definition
(property_declaration) @definition
(field_declaration) @definition
(delegate_declaration) @definition

; rule: signature-only priority=15 body=body
(accessor_declaration) @definition
"

def go : String :=
  "; option: retain-unclaimed=true

; rule: signature-only body=body
(function_declaration) @definition
(method_declaration) @definition

; rule: full-definition
(type_declaration) @definition
"

def java : String :=
  "; option: retain-unclaimed=true

; rule: signature-only body=body
(class_declaration) @definition
(record_declaration) @definition

; rule: signature-only body=body
(method_declaration) @definition
(constructor_declaration) @definition

; rule: full-definition priority=20
(interface_declaration) @definition
(enum_declaration) @definition
(annotation_type_declaration) @definition

; rule: full-definition
(field_declaration) @definition
"

def javascript : String :=
  "; option: retain-unclaimed=true

; rule: signature-only body=body
(class_declaration) @definition

; rule: signature-only body=body
(function_declaration) @definition
(generator_function_declaration) @definition
(method_definition) @definition

; rule: signature-only
(lexical_declaration
  (variable_declarator
    value: (arrow_function
      body: (_) @body))) @definition
(variable_declaration
  (variable_declarator
    value: (arrow_function
      body: (_) @body))) @definition

; rule: full-definition
(field_definition) @definition

; rule: signature-only priority=15
(field_definition
  value: (arrow_function
    body: (_) @body)) @definition

; rule: signature-only priority=15 body=body
(function_expression) @definition
(generator_function) @definition
"

def kotlin : String :=
  "; option: retain-unclaimed=true

; rule: signature-only body=body,class_body,enum_class_body
(class_declaration) @definition
(object_declaration) @definition

; rule: signature-only body=body,function_body
(function_declaration) @definition

; rule: full-definition
(class_body
  (property_declaration) @definition)

; rule: signature-only priority=15 body=body,function_body
(getter) @definition
(setter) @definition
"

def lua : String :=
  "; option: retain-unclaimed=true

; rule: signature-only body=body,block
(function_declaration) @definition
"

def php : String :=
  "; option: retain-unclaimed=true

; rule: signature-only body=body
(class_declaration) @definition
(trait_declaration) @definition

; rule: signature-only body=body
(function_definition) @definition
(method_declaration) @definition

; rule: full-definition priority=20
(interface_declaration) @definition
(enum_declaration) @definition

; rule: full-definition
(property_declaration) @definition
(const_declaration) @definition
"

def python : String :=
  "; option: retain-unclaimed=true

; rule: signature-only body=body
(class_definition) @definition

; rule: signature-only body=body
(function_definition) @definition

; rule: name-anchor
(decorator) @definition

; rule: full-definition
(class_definition
  body: (block
    (expression_statement
      (assignment) @definition)))
"

def ruby : String :=
  "; option: retain-unclaimed=true

; rule: signature-only body=body,body_statement
(class) @definition
(module) @definition

; rule: signature-only body=body,body_statement
(method) @definition
(singleton_method) @definition

; rule: full-definition
(class
  body: (body_statement
    (call) @definition))
(module
  body: (body_statement
    (call) @definition))
"

def rust : String :=
  "; option: retain-unclaimed=true

; rule: signature-only body=body
(function_item) @definition

; rule: signature-only body=body
(impl_item) @definition
(trait_item) @definition
(mod_item) @definition

; rule: full-definition
(struct_item) @definition
(enum_item) @definition
(type_item) @definition
(const_item) @definition
(function_signature_item) @definition

; rule: name-anchor
(attribute_item) @definition
"

def scala : String :=
  "; option: retain-unclaimed=true

; rule: signature-only body=body,template_body
(class_definition) @definition
(object_definition) @definition
(trait_definition) @definition

; rule: signature-only body=body
(function_definition) @definition

; rule: full-definition
(function_declaration) @definition
(template_body
  (val_definition) @definition)
"

def swift : String :=
  "; option: retain-unclaimed=true

; rule: signature-only body=body,class_body,enum_class_body
(class_declaration) @definition

; rule: signature-only body=body,function_body
(function_declaration) @definition

; rule: full-definition priority=20
(protocol_declaration) @definition

; rule: signature-only body=computed_value,computed_property
(class_body
  (property_declaration) @definition)
"

def typescript : String :=
  "; option: retain-unclaimed=true

; rule: full-definition priority=20
(interface_declaration) @definition
(type_alias_declaration) @definition
(enum_declaration) @definition

; rule: signature-only body=body
(class_declaration) @definition
(abstract_class_declaration) @definition
(internal_module) @definition

; rule: signature-only body=body
(function_declaration) @definition
(generator_function_declaration) @definition
(method_definition) @definition

; rule: signature-only
(lexical_declaration
  (variable_declarator
    value: (arrow_function
      body: (_) @body))) @definition
(variable_declaration
  (variable_declarator
    value: (arrow_function
      body: (_) @body))) @definition

; rule: full-definition
(function_signature) @definition
(method_signature) @definition
(abstract_method_signature) @definition
(public_field_definition) @definition

; rule: signature-only priority=15
(public_field_definition
  value: (arrow_function
    body: (_) @body)) @definition

; rule: signature-only priority=15 body=body
(function_expression) @definition
(generator_function) @definition
"

/-- Markup inside expressions adds no definitions, so both dialects have the same rules. -/
def tsx : String :=
  typescript

/-- The rule files by their languages. -/
def texts : List (String × String) :=
  [("bash", bash), ("c", c), ("cpp", cpp), ("csharp", csharp),
    ("go", go), ("java", java), ("javascript", javascript), ("kotlin", kotlin),
    ("lua", lua), ("php", php), ("python", python), ("ruby", ruby),
    ("rust", rust), ("scala", scala), ("swift", swift), ("tsx", tsx),
    ("typescript", typescript)]

/-- The rule files in a directory. -/
def directory : RuleDirectory :=
  ⟨"queries", some (texts.map fun (language, text) =>
    (ruleFileName language, Utf8.encode text.toList))⟩

/-- The registry of the supported languages. -/
def registry : Registry :=
  (loadRegistry supportedGrammar? directory).toOption.getD ⟨[]⟩

end CodeOutline.Bundle
