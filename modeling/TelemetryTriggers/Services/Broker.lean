import TelemetryTriggers.Error

/-!
# The broker

A topic is known by a handle that is made from its name.  A message published on
a topic is delivered once to each of its subscriptions, and deleting a topic
deletes its subscriptions.

Main definitions: `Broker` and its operations; `Broker.publish`, the fan-out.
-/

namespace TelemetryTriggers

structure Topic where
  name : String
  handle : TopicHandle
deriving DecidableEq

structure Subscription where
  handle : SubscriptionHandle
  topic : TopicHandle
  protocol : String
  endpoint : String
deriving DecidableEq

structure Delivery where
  topic : TopicHandle
  subscription : SubscriptionHandle
  protocol : String
  endpoint : String
  message : String
deriving DecidableEq

structure Broker where
  topics : List Topic
  subscriptions : List Subscription
  deliveries : List Delivery
deriving DecidableEq

namespace Broker

def empty : Broker :=
  ⟨[], [], []⟩

def handleFor (name : String) : TopicHandle :=
  ⟨"arn:memory:sns:" ++ name⟩

def hasTopic (b : Broker) (topic : TopicHandle) : Bool :=
  b.topics.any (·.handle == topic)

def hasSubscription (b : Broker) (subscription : SubscriptionHandle) : Bool :=
  b.subscriptions.any (·.handle == subscription)

def subscriptionsOf (b : Broker) (topic : TopicHandle) : List Subscription :=
  b.subscriptions.filter (·.topic == topic)

def endpoints (b : Broker) (topic : TopicHandle) : List String :=
  ((b.subscriptionsOf topic).map (·.endpoint)).mergeSort (fun a b => decide (a ≤ b))

def topicsByName (b : Broker) : List Topic :=
  b.topics.mergeSort (fun s t => decide (s.name ≤ t.name))

/-- Creates a topic; one that exists is left as it is. -/
def createTopic (b : Broker) (name : String) : Broker :=
  if b.hasTopic (handleFor name) then b
  else { b with topics := b.topics ++ [⟨name, handleFor name⟩] }

def deleteTopic (b : Broker) (topic : TopicHandle) : Except ServiceError Broker :=
  if b.hasTopic topic then
    .ok { b with
      topics := b.topics.filter (·.handle != topic)
      subscriptions := b.subscriptions.filter (·.topic != topic) }
  else
    .error (.notFound ("topic " ++ topic.text))

def protocols : List String :=
  ["email", "sms"]

def subscriptionHandle (topic : TopicHandle) (suffix : Uuid) : SubscriptionHandle :=
  ⟨topic.text ++ ":" ++ suffix.hyphenated⟩

def subscribe (b : Broker) (topic : TopicHandle) (protocol endpoint : String)
    (suffix : Uuid) : Except ServiceError (SubscriptionHandle × Broker) :=
  if protocols.contains protocol = false then
    .error (.rejected ("unsupported protocol '" ++ protocol ++ "'"))
  else if b.hasTopic topic = false then
    .error (.notFound ("topic " ++ topic.text))
  else
    let handle := subscriptionHandle topic suffix
    .ok (handle, { b with
      subscriptions := b.subscriptions.filter (·.handle != handle) ++
        [⟨handle, topic, protocol, endpoint⟩] })

def unsubscribe (b : Broker) (subscription : SubscriptionHandle) :
    Except ServiceError Broker :=
  if b.hasSubscription subscription then
    .ok { b with
      subscriptions := b.subscriptions.filter (·.handle != subscription) }
  else
    .error (.notFound ("subscription " ++ subscription.text))

def deliver (message : String) (s : Subscription) : Delivery :=
  ⟨s.topic, s.handle, s.protocol, s.endpoint, message⟩

/-- The deliveries of a message on a topic, in the order of their endpoints.  A
message on a topic that does not exist goes nowhere. -/
def deliveriesOf (b : Broker) (topic : TopicHandle) (message : String) :
    List Delivery :=
  if b.hasTopic topic then
    ((b.subscriptionsOf topic).map (deliver message)).mergeSort
      (fun d e => decide (d.endpoint ≤ e.endpoint))
  else
    []

/-- Delivers a message to every subscription to a topic.  Returns the deliveries,
which are also logged. -/
def publish (b : Broker) (topic : TopicHandle) (message : String) :
    List Delivery × Broker :=
  let made := b.deliveriesOf topic message
  (made, { b with deliveries := b.deliveries ++ made })

end Broker
end TelemetryTriggers
