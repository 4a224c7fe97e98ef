namespace TrafficMonitor.Document

inductive Scalar where
  | text (s : String)
  | whole (n : Int)
  | real (x : Float)
  | flag (b : Bool)
  | moment (written : String)

inductive Value where
  | absent
  | scalar (s : Scalar)
  | list (items : List Value)
  | table (entries : List (String × Value))

end TrafficMonitor.Document
