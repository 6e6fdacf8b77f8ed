import ModelRegistry.Error
import ModelRegistry.Model

namespace ModelRegistry

inductive Request
  | publish (model : Model)
  | update (model : Model)
  | unpublish (id : ModelId)
  | list (id : ModelId)
  | listAll
  | stats (id : ModelId)

inductive Answer
  | done
  | model (m : PublishedModel)
  | models (ms : List PublishedModel)
  | stats (s : ClusterStats)

namespace Request

def conclude : Request → Answer → Except Error Answer
  | list _, .models [m] => .ok (.model m)
  | list id, .models ms =>
    .error (.notFound s!"one model expected for {id} but found {ms.length}")
  | _, a => .ok a

end Request

end ModelRegistry
