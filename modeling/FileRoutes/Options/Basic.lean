/-! # Route options

What a route file says about its route in the exported `options` object: `RouteOptions`, with one
`ResponseSchema` for each status that it describes. Schemas are kept as the text they are written
in. -/

namespace FileRoutes

/-- The schema of a response with a given status. -/
structure ResponseSchema where
  /-- The HTTP status, from 100 to 599. -/
  status : Nat
  /-- The expression that describes the response, as it is written. -/
  schema : String
  /-- What the response means, if that is said. -/
  description : Option String
  deriving DecidableEq, Repr

/-- The **options** of a route. -/
structure RouteOptions where
  /-- The tags of the route. -/
  tags : Option (List String)
  /-- What the route does, in a few words. -/
  summary : Option String
  /-- What the route does, at length. -/
  description : Option String
  /-- The expression that describes the request body, as it is written. -/
  requestSchema : Option String
  /-- The responses, in the order in which they are written. -/
  responses : List ResponseSchema
  deriving DecidableEq, Repr

/-- The least status. -/
def ResponseSchema.leastStatus : Nat := 100

/-- The greatest status. -/
def ResponseSchema.greatestStatus : Nat := 599

/-- Whether a number is a status. -/
def ResponseSchema.isStatus (status : Nat) : Bool :=
  leastStatus ≤ status && status ≤ greatestStatus

/-- Whether a status reports success. -/
def ResponseSchema.isSuccess (status : Nat) : Bool :=
  200 ≤ status && status < 300

end FileRoutes
