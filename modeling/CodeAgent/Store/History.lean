import CodeAgent.Store.Basic

namespace CodeAgent

inductive StoreChange where
  | upsert (records : List StoredChunk)
  | delete (ids : List Text)
  | setHash (path hash : Text)
  | eraseHash (path : Text)
deriving DecidableEq

namespace Store

def change (s : Store) : StoreChange → Store
  | .upsert records => s.upsert records
  | .delete ids => s.delete ids
  | .setHash path hash => s.setHash path hash
  | .eraseHash path => s.eraseHash path

def after (s : Store) (changes : List StoreChange) : Store := changes.foldl change s

end Store
end CodeAgent
