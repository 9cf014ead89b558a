import ImageBuild.Digest
import ImageBuild.Options
import ImageBuild.Text.Octets

/-!
# Identifiers of images

An image is identified by a digest over the name of the context and the
options that select what is built: the tags in their order, the target stage,
and the build arguments in the order of their names. `encode` is the sequence
of octets that is digested.
-/

namespace ImageBuild.ImageId

/-- An item of an encoding: a zero octet, a label, and a text. -/
def item (label text : String) : Octets := 0 :: Text.encode label ++ Text.encode text

/-- A build argument with its value, if it has one. -/
def argument (name : String) (value : Option String) : Octets :=
  item "arg=" name ++
    match value with
    | none => []
    | some v => Text.encode "=" ++ Text.encode v

def encode (context : String) (tags : List String) (target : Option String)
    (arguments : Dict (Option String)) : Octets :=
  Text.encode context ++ tags.flatMap (item "tag=") ++
    (target.map (item "target=")).getD [] ++
    arguments.entries.flatMap fun e => argument e.1 e.2

/-- The identifier of the image that is built from a context. -/
def ofContext (context : String) (o : BuildOptions) : String :=
  Digest.name (encode context o.tags o.target o.buildArgs).toByteArray

end ImageBuild.ImageId
