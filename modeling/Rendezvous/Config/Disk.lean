/-
A disk without files.

A path is walked part by part.  Its empty parts and its dots stay in the directory they are met
in, so a path of nothing else names a directory, which cannot be read as a file.  Every other
part is missing, or cannot be a name at all.
-/
namespace Rendezvous
namespace Disk

/-- The parts of a path that are not empty and no dots. -/
def parts (path : String) : List String :=
  (path.splitOn "/").filter fun p => ["", ".", ".."].contains p == false

def longestName : Nat := 255

def longestPath : Nat := 4095

def refusal (path : String) : String :=
  if path.toList.contains '\x00' then "file name contained an unexpected NUL byte"
  else if path.isEmpty then "No such file or directory (os error 2)"
  else if longestPath < path.utf8ByteSize then "File name too long (os error 36)"
  else
    match parts path with
    | [] => "Is a directory (os error 21)"
    | p :: _ =>
      if longestName < p.utf8ByteSize then "File name too long (os error 36)"
      else "No such file or directory (os error 2)"

end Disk
end Rendezvous
