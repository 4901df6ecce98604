/-
The message types that everybody shares: those of the namespace `google.protobuf`.

* `sharedPool` — a pool with all of them.
-/

import Notary.Schema.Pool

namespace Notary.Schema

namespace Shared

/-! ### Fields -/

/-- A field of a type of the format, given by its number there. -/
def plain (type : Int32) (name : String) (number : Int32) : FieldDecl := { name, number, type }

def double : String → Int32 → FieldDecl := plain 1

def float : String → Int32 → FieldDecl := plain 2

def int64 : String → Int32 → FieldDecl := plain 3

def uint64 : String → Int32 → FieldDecl := plain 4

def int32 : String → Int32 → FieldDecl := plain 5

def bool : String → Int32 → FieldDecl := plain 8

def text : String → Int32 → FieldDecl := plain 9

def bytes : String → Int32 → FieldDecl := plain 12

def uint32 : String → Int32 → FieldDecl := plain 13

/-- A field of a shared message type. -/
def message (type name : String) (number : Int32) : FieldDecl :=
  { plain 11 name number with typeName := ".google.protobuf." ++ type }

/-- A field of a shared enumeration. -/
def enumeration (type name : String) (number : Int32) : FieldDecl :=
  { plain 14 name number with typeName := ".google.protobuf." ++ type }

/-- The field holds a list. -/
def many (f : FieldDecl) : FieldDecl := { f with label := 3 }

/-- The field has to be there. -/
def needed (f : FieldDecl) : FieldDecl := { f with label := 2 }

/-- The field is a member of a choice. -/
def oneOf (i : Int32) (f : FieldDecl) : FieldDecl := { f with oneofIndex := some i }

/-- The values of the field stand in one stretch. -/
def inStretch (f : FieldDecl) : FieldDecl := { f with options := some { value := true } }

/-- The names of an enumeration with their numbers. -/
def named (values : List (String × Int32)) : List EnumValueDecl :=
  values.map fun (name, number) => { name, number }

/-! ### Files -/

/-- A shared file. -/
def file (name : String) (dependencies : List String) (messages : List MessageDecl)
    (enums : List EnumDecl) : FileDecl :=
  let path (n : String) : String := s!"google/protobuf/{n}.proto"
  { name := path name, package := "google.protobuf", dependencies := dependencies.map path,
    messages, enums, version := some "proto3" }

/-- A message of any type. -/
def any : FileDecl :=
  file "any" [] [
    { name := "Any"
      fields :=
        [text "type_url" 1, bytes "value" 2] }] []

/-- Where a declaration stands. -/
def sourceContext : FileDecl :=
  file "source_context" [] [
    { name := "SourceContext"
      fields :=
        [text "file_name" 1] }] []

/-- Declarations of types. -/
def typeFile : FileDecl :=
  file "type" ["any", "source_context"] [
    { name := "Type"
      fields :=
        [text "name" 1, many (message "Field" "fields" 2),
         many (text "oneofs" 3), many (message "Option" "options" 4),
         message "SourceContext" "source_context" 5,
         enumeration "Syntax" "syntax" 6] },
    { name := "Field"
      fields :=
        [enumeration "Field.Kind" "kind" 1,
         enumeration "Field.Cardinality" "cardinality" 2, int32 "number" 3,
         text "name" 4, text "type_url" 6, int32 "oneof_index" 7, bool "packed" 8,
         many (message "Option" "options" 9), text "json_name" 10,
         text "default_value" 11]
      enums := [
        { name := "Kind"
          values := named [("TYPE_UNKNOWN", 0), ("TYPE_DOUBLE", 1), ("TYPE_FLOAT", 2),
                     ("TYPE_INT64", 3), ("TYPE_UINT64", 4), ("TYPE_INT32", 5),
                     ("TYPE_FIXED64", 6), ("TYPE_FIXED32", 7), ("TYPE_BOOL", 8),
                     ("TYPE_STRING", 9), ("TYPE_GROUP", 10), ("TYPE_MESSAGE", 11),
                     ("TYPE_BYTES", 12), ("TYPE_UINT32", 13), ("TYPE_ENUM", 14),
                     ("TYPE_SFIXED32", 15), ("TYPE_SFIXED64", 16), ("TYPE_SINT32", 17),
                     ("TYPE_SINT64", 18)] },
        { name := "Cardinality"
          values := named [("CARDINALITY_UNKNOWN", 0), ("CARDINALITY_OPTIONAL", 1),
                     ("CARDINALITY_REQUIRED", 2), ("CARDINALITY_REPEATED", 3)] }] },
    { name := "Enum"
      fields :=
        [text "name" 1, many (message "EnumValue" "enumvalue" 2),
         many (message "Option" "options" 3),
         message "SourceContext" "source_context" 4,
         enumeration "Syntax" "syntax" 5] },
    { name := "EnumValue"
      fields :=
        [text "name" 1, int32 "number" 2,
         many (message "Option" "options" 3)] },
    { name := "Option"
      fields :=
        [text "name" 1, message "Any" "value" 2] }] [
    { name := "Syntax"
      values := named [("SYNTAX_PROTO2", 0), ("SYNTAX_PROTO3", 1)] }]

/-- Declarations of services. -/
def api : FileDecl :=
  file "api" ["source_context", "type"] [
    { name := "Api"
      fields :=
        [text "name" 1, many (message "Method" "methods" 2),
         many (message "Option" "options" 3), text "version" 4,
         message "SourceContext" "source_context" 5,
         many (message "Mixin" "mixins" 6),
         enumeration "Syntax" "syntax" 7] },
    { name := "Method"
      fields :=
        [text "name" 1, text "request_type_url" 2, bool "request_streaming" 3,
         text "response_type_url" 4, bool "response_streaming" 5,
         many (message "Option" "options" 6),
         enumeration "Syntax" "syntax" 7] },
    { name := "Mixin"
      fields :=
        [text "name" 1, text "root" 2] }] []

/-- A span of time. -/
def duration : FileDecl :=
  file "duration" [] [
    { name := "Duration"
      fields :=
        [int64 "seconds" 1, int32 "nanos" 2] }] []

/-- A message without fields. -/
def empty : FileDecl :=
  file "empty" [] [
    { name := "Empty" }] []

/-- Names of fields. -/
def fieldMask : FileDecl :=
  file "field_mask" [] [
    { name := "FieldMask"
      fields :=
        [many (text "paths" 1)] }] []

/-- Values without a type of their own. -/
def struct : FileDecl :=
  file "struct" [] [
    { name := "Struct"
      fields :=
        [many (message "Struct.FieldsEntry" "fields" 1)]
      nested := [
        { name := "FieldsEntry"
          fields :=
            [text "key" 1, message "Value" "value" 2]
          options := some { value := true } }] },
    { name := "Value"
      fields :=
        [oneOf 0 (enumeration "NullValue" "null_value" 1),
         oneOf 0 (double "number_value" 2), oneOf 0 (text "string_value" 3),
         oneOf 0 (bool "bool_value" 4),
         oneOf 0 (message "Struct" "struct_value" 5),
         oneOf 0 (message "ListValue" "list_value" 6)]
      oneofs := [{ name := "kind" }] },
    { name := "ListValue"
      fields :=
        [many (message "Value" "values" 1)] }] [
    { name := "NullValue"
      values := named [("NULL_VALUE", 0)] }]

/-- A moment in time. -/
def timestamp : FileDecl :=
  file "timestamp" [] [
    { name := "Timestamp"
      fields :=
        [int64 "seconds" 1, int32 "nanos" 2] }] []

/-- Scalars that may be absent. -/
def wrappers : FileDecl :=
  file "wrappers" [] [
    { name := "DoubleValue"
      fields :=
        [double "value" 1] },
    { name := "FloatValue"
      fields :=
        [float "value" 1] },
    { name := "Int64Value"
      fields :=
        [int64 "value" 1] },
    { name := "UInt64Value"
      fields :=
        [uint64 "value" 1] },
    { name := "Int32Value"
      fields :=
        [int32 "value" 1] },
    { name := "UInt32Value"
      fields :=
        [uint32 "value" 1] },
    { name := "BoolValue"
      fields :=
        [bool "value" 1] },
    { name := "StringValue"
      fields :=
        [text "value" 1] },
    { name := "BytesValue"
      fields :=
        [bytes "value" 1] }] []

/-- Declarations as they are encoded. -/
def descriptor : FileDecl :=
  { file "descriptor" [] [
    { name := "FileDescriptorSet"
      fields :=
        [many (message "FileDescriptorProto" "file" 1)] },
    { name := "FileDescriptorProto"
      fields :=
        [text "name" 1, text "package" 2, many (text "dependency" 3),
         many (int32 "public_dependency" 10), many (int32 "weak_dependency" 11),
         many (message "DescriptorProto" "message_type" 4),
         many (message "EnumDescriptorProto" "enum_type" 5),
         many (message "ServiceDescriptorProto" "service" 6),
         many (message "FieldDescriptorProto" "extension" 7),
         message "FileOptions" "options" 8,
         message "SourceCodeInfo" "source_code_info" 9, text "syntax" 12,
         text "edition" 13] },
    { name := "DescriptorProto"
      fields :=
        [text "name" 1, many (message "FieldDescriptorProto" "field" 2),
         many (message "FieldDescriptorProto" "extension" 6),
         many (message "DescriptorProto" "nested_type" 3),
         many (message "EnumDescriptorProto" "enum_type" 4),
         many (message "DescriptorProto.ExtensionRange" "extension_range" 5),
         many (message "OneofDescriptorProto" "oneof_decl" 8),
         message "MessageOptions" "options" 7,
         many (message "DescriptorProto.ReservedRange" "reserved_range" 9),
         many (text "reserved_name" 10)]
      nested := [
        { name := "ExtensionRange"
          fields :=
            [int32 "start" 1, int32 "end" 2,
             message "ExtensionRangeOptions" "options" 3] },
        { name := "ReservedRange"
          fields :=
            [int32 "start" 1, int32 "end" 2] }] },
    { name := "ExtensionRangeOptions"
      fields :=
        [many (message "UninterpretedOption" "uninterpreted_option" 999)] },
    { name := "FieldDescriptorProto"
      fields :=
        [text "name" 1, int32 "number" 3,
         enumeration "FieldDescriptorProto.Label" "label" 4,
         enumeration "FieldDescriptorProto.Type" "type" 5, text "type_name" 6,
         text "extendee" 2, text "default_value" 7, int32 "oneof_index" 9,
         text "json_name" 10, message "FieldOptions" "options" 8,
         bool "proto3_optional" 17]
      enums := [
        { name := "Type"
          values := named [("TYPE_DOUBLE", 1), ("TYPE_FLOAT", 2), ("TYPE_INT64", 3),
                     ("TYPE_UINT64", 4), ("TYPE_INT32", 5), ("TYPE_FIXED64", 6),
                     ("TYPE_FIXED32", 7), ("TYPE_BOOL", 8), ("TYPE_STRING", 9), ("TYPE_GROUP", 10),
                     ("TYPE_MESSAGE", 11), ("TYPE_BYTES", 12), ("TYPE_UINT32", 13),
                     ("TYPE_ENUM", 14), ("TYPE_SFIXED32", 15), ("TYPE_SFIXED64", 16),
                     ("TYPE_SINT32", 17), ("TYPE_SINT64", 18)] },
        { name := "Label"
          values := named [("LABEL_OPTIONAL", 1), ("LABEL_REQUIRED", 2),
                     ("LABEL_REPEATED", 3)] }] },
    { name := "OneofDescriptorProto"
      fields :=
        [text "name" 1, message "OneofOptions" "options" 2] },
    { name := "EnumDescriptorProto"
      fields :=
        [text "name" 1,
         many (message "EnumValueDescriptorProto" "value" 2),
         message "EnumOptions" "options" 3,
         many (message "EnumDescriptorProto.EnumReservedRange" "reserved_range" 4),
         many (text "reserved_name" 5)]
      nested := [
        { name := "EnumReservedRange"
          fields :=
            [int32 "start" 1, int32 "end" 2] }] },
    { name := "EnumValueDescriptorProto"
      fields :=
        [text "name" 1, int32 "number" 2,
         message "EnumValueOptions" "options" 3] },
    { name := "ServiceDescriptorProto"
      fields :=
        [text "name" 1, many (message "MethodDescriptorProto" "method" 2),
         message "ServiceOptions" "options" 3] },
    { name := "MethodDescriptorProto"
      fields :=
        [text "name" 1, text "input_type" 2, text "output_type" 3,
         message "MethodOptions" "options" 4, bool "client_streaming" 5,
         bool "server_streaming" 6] },
    { name := "FileOptions"
      fields :=
        [text "java_package" 1, text "java_outer_classname" 8,
         bool "java_multiple_files" 10, bool "java_generate_equals_and_hash" 20,
         bool "java_string_check_utf8" 27,
         enumeration "FileOptions.OptimizeMode" "optimize_for" 9,
         text "go_package" 11, bool "cc_generic_services" 16,
         bool "java_generic_services" 17, bool "py_generic_services" 18,
         bool "php_generic_services" 42, bool "deprecated" 23,
         bool "cc_enable_arenas" 31, text "objc_class_prefix" 36,
         text "csharp_namespace" 37, text "swift_prefix" 39,
         text "php_class_prefix" 40, text "php_namespace" 41,
         text "php_metadata_namespace" 44, text "ruby_package" 45,
         many (message "UninterpretedOption" "uninterpreted_option" 999)]
      enums := [
        { name := "OptimizeMode"
          values := named [("SPEED", 1), ("CODE_SIZE", 2), ("LITE_RUNTIME", 3)] }] },
    { name := "MessageOptions"
      fields :=
        [bool "message_set_wire_format" 1, bool "no_standard_descriptor_accessor" 2,
         bool "deprecated" 3, bool "map_entry" 7,
         many (message "UninterpretedOption" "uninterpreted_option" 999)] },
    { name := "FieldOptions"
      fields :=
        [enumeration "FieldOptions.CType" "ctype" 1, bool "packed" 2,
         enumeration "FieldOptions.JSType" "jstype" 6, bool "lazy" 5,
         bool "unverified_lazy" 15, bool "deprecated" 3, bool "weak" 10,
         many (message "UninterpretedOption" "uninterpreted_option" 999)]
      enums := [
        { name := "CType"
          values := named [("STRING", 0), ("CORD", 1), ("STRING_PIECE", 2)] },
        { name := "JSType"
          values := named [("JS_NORMAL", 0), ("JS_STRING", 1), ("JS_NUMBER", 2)] }] },
    { name := "OneofOptions"
      fields :=
        [many (message "UninterpretedOption" "uninterpreted_option" 999)] },
    { name := "EnumOptions"
      fields :=
        [bool "allow_alias" 2, bool "deprecated" 3,
         many (message "UninterpretedOption" "uninterpreted_option" 999)] },
    { name := "EnumValueOptions"
      fields :=
        [bool "deprecated" 1,
         many (message "UninterpretedOption" "uninterpreted_option" 999)] },
    { name := "ServiceOptions"
      fields :=
        [bool "deprecated" 33,
         many (message "UninterpretedOption" "uninterpreted_option" 999)] },
    { name := "MethodOptions"
      fields :=
        [bool "deprecated" 33,
         enumeration "MethodOptions.IdempotencyLevel" "idempotency_level" 34,
         many (message "UninterpretedOption" "uninterpreted_option" 999)]
      enums := [
        { name := "IdempotencyLevel"
          values := named [("IDEMPOTENCY_UNKNOWN", 0), ("NO_SIDE_EFFECTS", 1),
                     ("IDEMPOTENT", 2)] }] },
    { name := "UninterpretedOption"
      fields :=
        [many (message "UninterpretedOption.NamePart" "name" 2),
         text "identifier_value" 3, uint64 "positive_int_value" 4,
         int64 "negative_int_value" 5, double "double_value" 6, bytes "string_value" 7,
         text "aggregate_value" 8]
      nested := [
        { name := "NamePart"
          fields :=
            [needed (text "name_part" 1), needed (bool "is_extension" 2)] }] },
    { name := "SourceCodeInfo"
      fields :=
        [many (message "SourceCodeInfo.Location" "location" 1)]
      nested := [
        { name := "Location"
          fields :=
            [inStretch (many (int32 "path" 1)), inStretch (many (int32 "span" 2)),
             text "leading_comments" 3, text "trailing_comments" 4,
             many (text "leading_detached_comments" 6)] }] },
    { name := "GeneratedCodeInfo"
      fields :=
        [many (message "GeneratedCodeInfo.Annotation" "annotation" 1)]
      nested := [
        { name := "Annotation"
          fields :=
            [inStretch (many (int32 "path" 1)), text "source_file" 2, int32 "begin" 3,
             int32 "end" 4,
             enumeration "GeneratedCodeInfo.Annotation.Semantic" "semantic" 5]
          enums := [
            { name := "Semantic"
              values := named [("NONE", 0), ("SET", 1), ("ALIAS", 2)] }] }] }] []
    with version := some "proto2" }

/-- What a generator of programs is asked, and what it answers. -/
def generator : FileDecl :=
  { name := "google/protobuf/compiler/plugin.proto"
    package := "google.protobuf.compiler"
    dependencies := [descriptor.name]
    messages := [
      { name := "Version"
        fields :=
          [int32 "major" 1, int32 "minor" 2, int32 "patch" 3, text "suffix" 4] },
      { name := "CodeGeneratorRequest"
        fields :=
          [many (text "file_to_generate" 1), text "parameter" 2,
           many (message "FileDescriptorProto" "proto_file" 15),
           message "compiler.Version" "compiler_version" 3] },
      { name := "CodeGeneratorResponse"
        fields :=
          [text "error" 1, uint64 "supported_features" 2,
           many (message "compiler.CodeGeneratorResponse.File" "file" 15)]
        nested := [
          { name := "File"
            fields :=
              [text "name" 1, text "insertion_point" 2, text "content" 15,
               message "GeneratedCodeInfo" "generated_code_info" 16] }]
        enums := [
          { name := "Feature"
            values := named [("FEATURE_NONE", 0), ("FEATURE_PROTO3_OPTIONAL", 1)] }] }]
    version := some "proto2" }

/-- All shared files, each behind those it depends on. -/
def files : List FileDecl :=
  [any, sourceContext, typeFile, api, duration, empty, fieldMask, struct, timestamp, wrappers,
   descriptor, generator]

end Shared

/-- The pool of the shared types. -/
def sharedPool : Pool := (({} : Pool).link? Shared.files).getD {}

end Notary.Schema
