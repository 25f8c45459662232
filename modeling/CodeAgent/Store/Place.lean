import CodeAgent.Config.Load
import CodeAgent.Digest.Sha256

namespace CodeAgent.Store

def fileName : Text := "chunks.json"

/-- The directory for a workspace: its name and the start of the digest of its path. -/
def directoryFor (home root : Path) : Path :=
  let digest := (Sha256.hexDigest (Utf8.encodeAny root.text)).take 12
  let name : Text := if root.name.isEmpty then "root" else root.name
  ((Config.homeDirectory home).child "index").child (name ++ "-" ++ digest)

end CodeAgent.Store
