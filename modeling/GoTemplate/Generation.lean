import GoTemplate.Imports.Normalizer
import GoTemplate.Output.Merge
import GoTemplate.Output.Package
import GoTemplate.Report.Diagnostic
import GoTemplate.Template.Instance
import GoTemplate.Template.Placeholder
import GoTemplate.Template.Reader
import GoTemplate.Text.Utf8

/-!
Generation of code: an instance of a template for each type set, all put together in one file. It
fails as a whole where it fails for one type set.
-/

namespace GoTemplate

/-- Why no code is generated. -/
inductive GenerationError where
  | notUtf8
  | source (filename : Text) (rejection : Rejection)
  | missingType (placeholder : Text)
  | imports (error : ImportError)

namespace GenerationError

/-- The wording for errors in a template. -/
def sourceMessage (filename : Text) (errors : List Diagnostic) : String :=
  s!"{String.ofList filename}: {Diagnostic.summarize errors}"

/-- Errors in a template with the lines that they concern. -/
def renderSource (template filename : Text) (errors : List Diagnostic) : Text :=
  filename ++ ":\n".toList ++ errors.flatMap (Diagnostic.render template)

/-- The wording of an error, without the cause of a failed normalization. -/
def message : GenerationError → String
  | notUtf8 => "stream did not contain valid UTF-8"
  | source filename rejection => sourceMessage filename rejection.diagnostics
  | missingType placeholder =>
    s!"missing specific type for generic type {String.ofList placeholder}"
  | imports _ => "import normalization failed"

/-- The wording of an error with its cause. -/
def fullMessage : GenerationError → String
  | imports error => s!"{(imports error).message}: {error.fullMessage}"
  | e => e.message

/-- The error with the lines of the template that it concerns. -/
def render (template : Text) : GenerationError → Text
  | source filename rejection => renderSource template filename rejection.diagnostics
  | e => e.message.toList

end GenerationError

/-- A step of generation: it may read the template, and it may fail. -/
abbrev GenerationM := ExceptT GenerationError (StateM TemplateReader)

namespace Template

/-- The text of a template and its declarations. -/
def parse (filename : Text) (template : ByteArray) : Except GenerationError (Text × SourceFile) :=
  match Text.ofUtf8? template with
  | none => .error .notUtf8
  | some text =>
    match SourceFile.parse text with
    | .ok file => .ok (text, file)
    | .error rejection => .error (.source filename rejection)

/-- That a type set has a type for each placeholder of a template. -/
def checkCoverage (file : SourceFile) (types : TypeSet) : Except GenerationError Unit :=
  match file.missingPlaceholder? types with
  | some placeholder => .error (.missingType placeholder)
  | none => .ok ()

/-- The instance of a template for a type set. The template is read from its start. -/
def generate (filename : Text) (types : TypeSet) : GenerationM Text := do
  TemplateReader.rewind
  let template ← TemplateReader.readToEnd
  let (text, file) ← parse filename template
  checkCoverage file types
  return instantiate types text

end Template

/-- What generation is asked for besides the template and the types. -/
structure GenerationOptions where
  /-- The name of the template in messages. -/
  filename : Text
  /-- The file to which the code will be written. -/
  output : Option Text
  /-- The name of the package of the code; without one, or with the empty one, it stays. -/
  package : Option Text

/-- The instances of a template for type sets, in their order and in one text. -/
def specialize (options : GenerationOptions) (sets : List TypeSet) : GenerationM Text := do
  let instances ← sets.mapM (Template.generate options.filename)
  let merged := Output.merge instances
  match options.package with
  | some name => return if name = [] then merged else Output.renamePackage name merged
  | none => return merged

/-- The code for a template and type sets, with its imports. -/
def generateCode (normalizer : Normalizer) (options : GenerationOptions) (sets : List TypeSet) :
    GenerationM ByteArray := do
  let code ← specialize options sets
  match normalizer options.output code.toUtf8 with
  | .ok code => return code
  | .error error => throw (.imports error)

end GoTemplate
